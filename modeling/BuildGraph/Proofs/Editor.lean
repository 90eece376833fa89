import BuildGraph.Proofs.Descriptor.Instantiation
import BuildGraph.Proofs.Graph.Narrowing
set_option autoImplicit false

/-!
# Editor builds

A build for editors takes in the modules that are meant for editors alone, and adds to every module
the dependencies and definitions that are. No stage in the making of a module fails in one kind of
build and succeeds in the other, and each of them keeps the relation between the two modules that it
makes: the module of the plain build is the one of the editor build, narrowed.

So a workspace that can be built for editors can be built without them, unless its only toolchains
are for editors, and without repeated names a module then needs no more than it does for editors.
-/

namespace BuildGraph

variable {r : Registry} {p : Platform} {file : String} {shared : Option String} {d : Declaration}
  {n m : Module}

/-! ## The stages of one module -/

theorem exists_create?_narrows {name : String} {kind : Kind} {a : Attributes}
    (h : Module.create? name kind file a ⟨true, p⟩ = some m) :
    ∃ n, Module.create? name kind file a ⟨false, p⟩ = some n ∧ n.Narrows m := by
  unfold Module.create? at h ⊢
  cases hparent : Path.parent? file with
  | none =>
    rw [hparent] at h
    cases h
  | some directory =>
    rw [hparent] at h
    dsimp only at h ⊢
    split at h
    · cases h
    · rename_i hdirectory
      obtain rfl := Option.some.inj h
      rw [if_neg hdirectory]
      exact ⟨_, rfl, rfl, fun _ hname => hname, fun _ => by simp [Module.isActive]⟩

theorem Scoped.mem_all_append {s t : Scoped} {v : String} :
    v ∈ (s.append t).all ↔ v ∈ s.all ∨ v ∈ t.all := by
  simp only [mem_all, append, List.mem_append]
  exact or_or_or_comm

namespace Module.Narrows

theorem qualified (h : n.Narrows m) (qualifier : Option String) :
    { n with qualifier }.Narrows { m with qualifier } where
  same := by
    rw [h.same]
  dependencies_subset := h.dependencies_subset
  isActive_of_isActive := h.isActive_of_isActive

theorem excluded (h : n.Narrows m) : n.exclude.Narrows m.exclude where
  same := by
    rw [h.same]
    rfl
  dependencies_subset := h.dependencies_subset
  isActive_of_isActive hactive := absurd hactive Bool.false_ne_true

theorem exists_included {m' : Module} (h : n.Narrows m) (hm : Setup.included d m = .ok m') :
    ∃ n', Setup.included d n = .ok n' ∧ n'.Narrows m' := by
  unfold Setup.included at hm ⊢
  cases hsubdirectory : d.subdirectory with
  | none =>
    rw [hsubdirectory] at hm
    cases hm
  | some directory =>
    rw [hsubdirectory] at hm
    dsimp only at hm ⊢
    split at hm
    · cases hm
    · rename_i hdirectory
      obtain ⟨options, hoptions, hm⟩ := bind_eq_ok_iff.1 hm
      obtain rfl := Except.ok.inj hm
      rw [if_neg hdirectory, hoptions]
      refine ⟨_, rfl, ?_, h.dependencies_subset, h.isActive_of_isActive⟩
      rw [h.same]

/-- The first step of a kind looks at nothing in which the two modules differ. -/
theorem exists_apply {s : Setup} {m' : Module} (h : n.Narrows m) (hm : s.apply d m = .ok m') :
    ∃ n', s.apply d n = .ok n' ∧ n'.Narrows m' := by
  cases s with
  | plain =>
    obtain rfl := Except.ok.inj hm
    exact ⟨n, rfl, h⟩
  | native => exact h.exists_included hm
  | _ =>
    obtain rfl := Except.ok.inj hm
    refine ⟨_, rfl, ?_, h.dependencies_subset, h.isActive_of_isActive⟩
    rw [h.same]
    rfl

/-- The dependencies for editors are added in builds for editors alone. -/
theorem exists_addLists {m' : Module} (h : n.Narrows m)
    (hm : d.addLists file ⟨true, p⟩ m = .ok m') :
    ∃ n', d.addLists file ⟨false, p⟩ n = .ok n' ∧ n'.Narrows m' := by
  unfold Declaration.addLists at hm ⊢
  simp only [bind_eq_ok_iff] at hm
  obtain ⟨definitions, hdefinitions, dependencies, hdependencies, hm⟩ := hm
  obtain rfl := Except.ok.inj hm
  rw [hdefinitions, hdependencies]
  refine ⟨_, rfl, ?_, ?_, h.isActive_of_isActive⟩
  · rw [h.same]
  · intro name hname
    simp only [Scoped.mem_all_append] at hname ⊢
    refine hname.imp (Or.imp_left fun hold => h.dependencies_subset hold) ?_
    intro hplatform
    have hgiven : name ∈ dependencies := by
      simpa [Scoped.all, Declaration.forEditor] using hplatform
    exact Scoped.mem_all.2 (.inl (List.mem_append_right _ hgiven))

/-- Whether a declaration leaves its module out does not depend on the kind of build. -/
theorem exists_settle {m' : Module} (h : n.Narrows m)
    (hm : d.settle file ⟨true, p⟩ m = .ok m') :
    ∃ n', d.settle file ⟨false, p⟩ n = .ok n' ∧ n'.Narrows m' := by
  unfold Declaration.settle at hm ⊢
  dsimp only at hm ⊢
  split at hm
  · rename_i hasked
    obtain rfl := Except.ok.inj hm
    rw [if_pos hasked]
    exact ⟨_, rfl, h.excluded⟩
  · rename_i hasked
    rw [if_neg hasked]
    cases hallows : Declaration.allows file p d.platforms with
    | error e =>
      rw [hallows] at hm
      cases hm
    | ok allowed =>
      rw [hallows] at hm
      obtain rfl := Except.ok.inj hm
      refine ⟨_, rfl, ?_⟩
      cases allowed with
      | true => exact h
      | false => exact h.excluded

end Module.Narrows

/-! ## Whole workspaces -/

namespace Registry

/-- What a declaration makes in an editor build, it makes in a plain build too, only narrower. -/
theorem exists_instantiate_narrows (h : r.instantiate ⟨true, p⟩ file shared d = .ok m) :
    ∃ n, r.instantiate ⟨false, p⟩ file shared d = .ok n ∧ n.Narrows m := by
  obtain ⟨hname, rule, hrule, created, hcreated, started, hstarted, listed, hlisted, hsettled⟩ :=
    instantiate_eq_ok_iff.1 h
  obtain ⟨created', hcreated', hnarrows⟩ := exists_create?_narrows hcreated
  obtain ⟨started', hstarted', hnarrows⟩ :=
    (hnarrows.qualified (d.qualifier.or shared)).exists_apply hstarted
  obtain ⟨listed', hlisted', hnarrows⟩ := hnarrows.exists_addLists hlisted
  obtain ⟨n, hn, hnarrows⟩ := hnarrows.exists_settle hsettled
  refine ⟨n, instantiate_eq_ok_iff.2 ?_, hnarrows⟩
  exact ⟨hname, rule, hrule, created', hcreated', started', hstarted', listed', hlisted', hn⟩

theorem exists_instantiateAll_narrowed {ds : List Placed} {ms : List Module}
    (h : r.instantiateAll ⟨true, p⟩ ds = .ok ms) :
    ∃ ns, r.instantiateAll ⟨false, p⟩ ds = .ok ns ∧ Narrowed ns ms :=
  exists_mapM_eq_ok_of_forall (fun _ _ hone => exists_instantiate_narrows hone) h

end Registry

/-! ## A desk with tools -/

/-- A program that needs a library and two modules for editors alone, one of which has the name of a
system library, and that in builds for editors needs the toolchain too. -/
def desk : List Placed :=
  let tool : Attributes := { Attributes.plain with editorOnly := true }
  let blank : Declaration := default
  [⟨"/ws/Kit/Kit.module.toml", none, { blank with name := "Kit", kind := "toolchain" }⟩,
    ⟨"/ws/Base/Base.module.toml", none, { blank with name := "Base", kind := "static-library" }⟩,
    ⟨"/ws/Gui/Gui.module.toml", none,
      { blank with name := "Gui", kind := "interface", attributes := tool }⟩,
    ⟨"/ws/Log/Log.module.toml", none,
      { blank with name := "Log", kind := "interface", attributes := tool }⟩,
    ⟨"/ws/App/App.module.toml", none,
      { blank with
        name := "App"
        kind := "executable"
        dependencies := ⟨["Base", "Gui"], ["Log"]⟩
        editorDependencies := ["Kit"] }⟩]

/-- The desk can be built with and without the editor, and no two of its modules share a name. -/
theorem exists_build_desk (editor : Bool) :
    ∃ ms b, Registry.standard.instantiateAll ⟨editor, .unix⟩ desk = .ok ms ∧
      Graph.build ["Gui"] false ms = .ok b ∧ Unambiguous ms ∧
      ms.map Module.isActive = [true, true, editor, editor, true] ∧
      b.graph.dependencies 4 = if editor then [0, 1, 2, 3] else [1] := by
  have hview : (Registry.standard.instantiateAll ⟨editor, .unix⟩ desk).toOption.map (fun ms =>
      (decide (ms.Pairwise fun x y =>
        ∀ name ∈ x.targetName :: x.linkableTargets, name ∉ y.targetName :: y.linkableTargets),
        ms.map Module.isActive,
        (Graph.build ["Gui"] false ms).toOption.map fun b => b.graph.dependencies 4)) =
      some (true, [true, true, editor, editor, true],
        some (if editor then [0, 1, 2, 3] else [1])) := by
    cases editor <;> with_unfolding_all decide
  obtain ⟨ms, hms, heq⟩ := exists_ok_of_map_eq_some hview
  obtain ⟨hdisjoint, heq⟩ := Prod.mk.inj heq
  obtain ⟨hactive, hbuild⟩ := Prod.mk.inj heq
  obtain ⟨b, hb, hdependencies⟩ := exists_ok_of_map_eq_some hbuild
  have hnames := unambiguous_of_disjoint (of_decide_eq_true hdisjoint)
  exact ⟨ms, b, hms, hb, hnames, hactive, hdependencies⟩

namespace Graph

variable {ds : List Placed} {ns ms : List Module} {libraries libraries' : List String}
  {b b' : Built}

/-- Declarations that can be built for editors make modules in a plain build too. That build yields
a graph or fails because no toolchain is left; no dependency is ever left without meaning. -/
theorem build_without_editor (hms : r.instantiateAll ⟨true, p⟩ ds = .ok ms)
    (hb : Graph.build libraries false ms = .ok b) :
    ∃ ns, r.instantiateAll ⟨false, p⟩ ds = .ok ns ∧
      ((∃ b', Graph.build libraries false ns = .ok b') ∨
        ∃ f, Graph.build libraries false ns = .error f ∧ f.error = .noToolchain) := by
  obtain ⟨ns, hns, hnarrowed⟩ := Registry.exists_instantiateAll_narrowed hms
  exact ⟨ns, hns, exists_build_or_noToolchain_of_narrowed hnarrowed hb⟩

/-- Without the editor the desk still makes modules, and no dependency of theirs is in the way of a
graph. -/
theorem build_without_editor_desk :
    ∃ ms b, Registry.standard.instantiateAll ⟨true, .unix⟩ desk = .ok ms ∧
      Graph.build ["Gui"] false ms = .ok b ∧
      ∃ ns, Registry.standard.instantiateAll ⟨false, .unix⟩ desk = .ok ns ∧
        ((∃ b', Graph.build ["Gui"] false ns = .ok b') ∨
          ∃ f, Graph.build ["Gui"] false ns = .error f ∧ f.error = .noToolchain) := by
  obtain ⟨ms, b, hms, hb, -⟩ := exists_build_desk true
  exact ⟨ms, b, hms, hb, build_without_editor hms hb⟩

/-- The modules of a plain build and of an editor build of the same declarations, where no name is
answered to by two active modules of the editor build. A module that is active in the plain build is
active in the editor build, and what it needs in the plain build it needs in the editor build. -/
theorem closure_subset_editor (hns : r.instantiateAll ⟨false, p⟩ ds = .ok ns)
    (hms : r.instantiateAll ⟨true, p⟩ ds = .ok ms) (hnames : Unambiguous ms)
    (hb' : Graph.build libraries' false ns = .ok b') (hb : Graph.build libraries false ms = .ok b) :
    (∀ (id : ModuleId) (n : Module), ns[id]? = some n → n.isActive = true →
      ∃ m, ms[id]? = some m ∧ m.isActive = true) ∧
    ∀ id, b'.graph.closure id ⊆ b.graph.closure id := by
  obtain ⟨ns', hns', hnarrowed⟩ := Registry.exists_instantiateAll_narrowed hms
  obtain rfl := Except.ok.inj (hns'.symm.trans hns)
  constructor
  · intro id n hn hactive
    obtain ⟨m, hm, hmactive, -⟩ := hnarrowed.exists_active hn hactive
    exact ⟨m, hm, hmactive⟩
  · intro id
    exact closure_subset_of_narrowed hnarrowed hnames (isGraphOf_of_build hb)
      (isGraphOf_of_build hb') id

/-- Without the editor the program needs one of the four modules that it needs with it. -/
theorem closure_subset_editor_desk :
    ∃ ns ms b' b, Registry.standard.instantiateAll ⟨false, .unix⟩ desk = .ok ns ∧
      Registry.standard.instantiateAll ⟨true, .unix⟩ desk = .ok ms ∧ Unambiguous ms ∧
      Graph.build ["Gui"] false ns = .ok b' ∧ Graph.build ["Gui"] false ms = .ok b ∧
      b'.graph.dependencies 4 = [1] ∧ b.graph.dependencies 4 = [0, 1, 2, 3] ∧
      (∃ m, ms[4]? = some m ∧ m.isActive = true) ∧ 1 ∈ b'.graph.closure 4 ∧
      b'.graph.closure 4 ⊆ b.graph.closure 4 := by
  obtain ⟨ns, b', hns, hb', -, hactive, hplain⟩ := exists_build_desk false
  obtain ⟨ms, b, hms, hb, hnames, -, heditor⟩ := exists_build_desk true
  obtain ⟨hkept, hsubset⟩ := closure_subset_editor hns hms hnames hb' hb
  have happ : (ns[4]?).map Module.isActive = some true := by
    rw [← List.getElem?_map, hactive]
    rfl
  obtain ⟨n, hn, hnactive⟩ := Option.map_eq_some_iff.1 happ
  have hstep : b'.graph.Step 4 1 := mem_dependencies_iff.1 (hplain ▸ List.mem_cons_self)
  have hneeded : 1 ∈ b'.graph.closure 4 :=
    (mem_closure_iff_transGen (isGraphOf_of_build hb')).2 ⟨by decide, .single hstep⟩
  exact ⟨ns, ms, b', b, hns, hms, hnames, hb', hb, hplain, heditor, hkept 4 n hn hnactive, hneeded,
    hsubset 4⟩

end Graph

end BuildGraph
