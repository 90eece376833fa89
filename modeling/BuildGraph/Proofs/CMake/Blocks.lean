import BuildGraph.CMake.Block
set_option autoImplicit false

/-!
# The directives of a block

Each directive of a block is of one of three sorts. It declares a target or includes a project, it
sets one of the properties that are given by scope, or it arranges something else. What a directive
of a sort can be is said once, for the sort; a statement about a whole block is then one about the
sorts.
-/

namespace BuildGraph.CMake

variable {g : Graph} {w : Workspace} {id : ModuleId} {m x : Module} {d : Directive}
  {p q : Property} {values : Scoped}

/-! ## Sorts of directives -/

/-- The directives that declare the targets of a module or include its project. -/
inductive IsDeclaration (m : Module) : Directive → Prop
  | library (shared : Bool) : IsDeclaration m (.library m.targetName shared (sourcePaths m))
  | interfaceLibrary : IsDeclaration m (.interfaceLibrary m.targetName)
  | subdirectory (path : String) (h : m.subdirectory = some path) :
      IsDeclaration m (.subdirectory path)
  | executable (windowed : Bool) :
      IsDeclaration m (.executable m.targetName windowed (sourcePaths m))
  | fileTarget : IsDeclaration m (.fileTarget m.targetName (sourcePaths m))
  | companion : IsDeclaration m (.companion m.targetName m.file)

/-- The directives of a module that neither declare a target nor set a property by scope. -/
inductive IsArrangement (g : Graph) (w : Workspace) (m : Module) : Directive → Prop
  | cacheEntry (o : CachedOption) (h : o ∈ m.cachedOptions) : IsArrangement g w m (.cacheEntry o)
  | sourceGroup (windows : Bool) :
      IsArrangement g w m (.sourceGroup windows m.directory (sourcePaths m))
  | place (folder : String) (h : folder? m w.root = some folder) :
      IsArrangement g w m (.place m.targetName folder w.root)
  | companionFolder (folder : String) (h : folder? m w.root = some folder) :
      IsArrangement g w m (.folder (companionName m.targetName) folder)
  | exportedFolder (folder target : String) (h : folder? m w.root = some folder)
      (htarget : target ∈ m.exportedTargets) : IsArrangement g w m (.folder target folder)
  | startArguments : IsArrangement g w m (.startArguments m.targetName (startArguments m))
  | copyLibrary (x : Module) (path : String) (hx : x ∈ g.modules)
      (hpath : path ∈ x.exportedSharedLibraries) :
      IsArrangement g w m
        (.copyLibrary m.targetName (qualify x.directory path) (fileName path))
  | languageStandard : IsArrangement g w m (.languageStandard m.targetName)

theorem isDeclaration_of_mem (h : d ∈ declarationDirectives m w) : IsDeclaration m d := by
  unfold declarationDirectives at h
  cases List.mem_append.1 h with
  | inl hkind =>
    unfold kindDirectives at hkind
    cases hk : m.kind <;> simp only [hk] at hkind
    case native =>
      obtain ⟨path, hpath, rfl⟩ := List.mem_map.1 hkind
      exact .subdirectory path (Option.mem_toList.1 hpath)
    case interface =>
      obtain rfl := List.mem_singleton.1 hkind
      exact .interfaceLibrary
    case executable =>
      obtain rfl := List.mem_singleton.1 hkind
      exact .executable _
    case customRules =>
      obtain rfl := List.mem_singleton.1 hkind
      exact .fileTarget
    all_goals
      split at hkind
      · exact absurd hkind List.not_mem_nil
      · obtain rfl := List.mem_singleton.1 hkind
        exact .library _
  | inr hcompanion =>
    split at hcompanion
    · obtain rfl := List.mem_singleton.1 hcompanion
      exact .companion
    · exact absurd hcompanion List.not_mem_nil

theorem isArrangement_of_mem_options (h : d ∈ optionDirectives m) : IsArrangement g w m d := by
  unfold optionDirectives at h
  split at h
  · obtain ⟨o, ho, rfl⟩ := List.mem_map.1 h
    exact .cacheEntry o ho
  · exact absurd h List.not_mem_nil

theorem isArrangement_of_mem_group (h : d ∈ groupDirectives m) : IsArrangement g w m d := by
  unfold groupDirectives at h
  split at h
  · exact absurd h List.not_mem_nil
  · obtain rfl := List.mem_singleton.1 h
    exact .sourceGroup _

theorem isArrangement_of_mem_place (h : d ∈ placeDirectives m w) : IsArrangement g w m d := by
  unfold placeDirectives at h
  split at h
  · exact absurd h List.not_mem_nil
  · rename_i folder hfolder
    simp only [List.mem_append, List.mem_singleton] at h
    rcases h with ((rfl | hcompanion) | hexported) | harguments
    · exact .place folder hfolder
    · split at hcompanion
      · obtain rfl := List.mem_singleton.1 hcompanion
        exact .companionFolder folder hfolder
      · exact absurd hcompanion List.not_mem_nil
    · obtain ⟨target, htarget, rfl⟩ := List.mem_map.1 hexported
      exact .exportedFolder folder target hfolder htarget
    · split at harguments
      · exact absurd harguments List.not_mem_nil
      · obtain rfl := List.mem_singleton.1 harguments
        exact .startArguments

theorem isArrangement_of_mem_copies (h : d ∈ copyDirectives g id m) : IsArrangement g w m d := by
  unfold copyDirectives at h
  split at h
  · obtain ⟨x, hx, hcopies⟩ := List.mem_flatMap.1 h
    obtain ⟨k, -, hk⟩ := List.mem_filterMap.1 hx
    unfold copiesFrom at hcopies
    split at hcopies
    · obtain ⟨path, hpath, rfl⟩ := List.mem_map.1 hcopies
      exact .copyLibrary x path (List.mem_of_getElem? hk) hpath
    · exact absurd hcopies List.not_mem_nil
  · exact absurd h List.not_mem_nil

theorem isArrangement_of_mem_standard (h : d ∈ standardDirectives m) : IsArrangement g w m d := by
  unfold standardDirectives at h
  split at h
  · obtain rfl := List.mem_singleton.1 h
    exact .languageStandard
  · exact absurd h List.not_mem_nil

/-! ## Properties by scope -/

/-- The property that a directive sets by scope. -/
def Directive.property? : Directive → Option Property
  | .property p _ _ => some p
  | _ => none

/-- The values that a module gives for a property: paths are seen from its directory, and a module
that is compiled and not the toolchain itself links the toolchain behind its dependencies. -/
def propertyValues (g : Graph) (id : ModuleId) (m : Module) : Property → Scoped
  | .linkLibraries =>
    ⟨m.dependencies.exposed ++
      (if id ≠ g.toolchain ∧ m.kind.traits.producesTarget = true then
        [g.targetName g.toolchain] else []),
      m.dependencies.internal⟩
  | .compileDefinitions => m.definitions
  | .includeDirectories => qualified m m.includeDirectories
  | .precompileHeaders => qualified m m.precompiledHeaders
  | .linkDirectories => qualified m m.linkDirectories

/-- All values that a module declares for properties. -/
def declaredValues (m : Module) : List String :=
  m.dependencies.all ++ m.definitions.all ++ m.includeDirectories.all ++
    m.precompiledHeaders.all ++ m.linkDirectories.all

/-- What holds of the declared values, of the name of the toolchain and, with a value, of the path
that it makes in the directory of the module, holds of all values of properties. -/
theorem forall_mem_propertyValues {P : String → Prop} (htoolchain : P (g.targetName g.toolchain))
    (hdeclared : ∀ v ∈ declaredValues m, P v) (hpath : ∀ v, P v → P (qualify m.directory v))
    (p : Property) : ∀ v ∈ (propertyValues g id m p).all, P v := by
  have hqualified : ∀ values : Scoped, (∀ u ∈ values.all, P u) →
      ∀ v ∈ (qualified m values).all, P v := by
    intro values hvalues v hv
    have hmap : (qualified m values).all = values.all.map (qualify m.directory) :=
      (List.map_append ..).symm
    rw [hmap] at hv
    obtain ⟨u, hu, rfl⟩ := List.mem_map.1 hv
    exact hpath u (hvalues u hu)
  unfold declaredValues at hdeclared
  simp only [List.forall_mem_append] at hdeclared
  obtain ⟨⟨⟨⟨hdependencies, hdefinitions⟩, hinclude⟩, hprecompiled⟩, hdirectories⟩ := hdeclared
  cases p with
  | linkLibraries =>
    intro v hv
    have hexposed := (List.forall_mem_append.1 hdependencies).1
    have hinternal := (List.forall_mem_append.1 hdependencies).2
    unfold propertyValues Scoped.all at hv
    dsimp only at hv
    rcases List.mem_append.1 hv with hv | hv
    · cases List.mem_append.1 hv with
      | inl hdependency => exact hexposed v hdependency
      | inr hadded =>
        split at hadded
        · exact List.mem_singleton.1 hadded ▸ htoolchain
        · exact absurd hadded List.not_mem_nil
    · exact hinternal v hv
  | compileDefinitions => exact hdefinitions
  | includeDirectories => exact hqualified _ hinclude
  | precompileHeaders => exact hqualified _ hprecompiled
  | linkDirectories => exact hqualified _ hdirectories

theorem linkLibraries_eq (g : Graph) (id : ModuleId) (m : Module) :
    linkLibraries g id m = propertyValues g id m .linkLibraries := by
  unfold linkLibraries propertyValues
  split
  · rfl
  · rw [List.append_nil]

theorem eq_property_of_mem (h : d ∈ propertyDirectives m p values) :
    d = .property p m.targetName (groupsOf m values) := by
  unfold propertyDirectives at h
  split at h
  · exact absurd h List.not_mem_nil
  · rename_i groups hne
    exact List.mem_singleton.1 h

theorem IsDeclaration.property?_eq_none (h : IsDeclaration m d) : d.property? = none := by
  cases h <;> rfl

theorem IsArrangement.property?_eq_none (h : IsArrangement g w m d) : d.property? = none := by
  cases h <;> rfl

theorem IsArrangement.declared?_eq_none (h : IsArrangement g w m d) : d.declared? = none := by
  cases h <;> rfl

/-! ## Whole blocks -/

theorem blockDirectives_eq (hm : g.modules[id]? = some m) (hactive : m.isActive = true) :
    blockDirectives g w id = moduleDirectives g w id m := by
  unfold blockDirectives
  rw [hm]
  exact if_pos hactive

/-- The sorts in a block. -/
theorem mem_moduleDirectives (h : d ∈ moduleDirectives g w id m) :
    IsDeclaration m d ∨ IsArrangement g w m d ∨
      ∃ p, d = .property p m.targetName (groupsOf m (propertyValues g id m p)) := by
  unfold moduleDirectives at h
  rw [linkLibraries_eq] at h
  simp only [List.mem_append] at h
  rcases h with
    (((((((((hoptions | hdeclaration) | hgroup) | hplace) | hlink) | hcopies) | hdefinitions) |
      hinclude) | hstandard) | hprecompiled) | hdirectories
  · exact .inr (.inl (isArrangement_of_mem_options hoptions))
  · exact .inl (isDeclaration_of_mem hdeclaration)
  · exact .inr (.inl (isArrangement_of_mem_group hgroup))
  · exact .inr (.inl (isArrangement_of_mem_place hplace))
  · exact .inr (.inr ⟨.linkLibraries, eq_property_of_mem hlink⟩)
  · exact .inr (.inl (isArrangement_of_mem_copies hcopies))
  · exact .inr (.inr ⟨.compileDefinitions, eq_property_of_mem hdefinitions⟩)
  · exact .inr (.inr ⟨.includeDirectories, eq_property_of_mem hinclude⟩)
  · exact .inr (.inl (isArrangement_of_mem_standard hstandard))
  · exact .inr (.inr ⟨.precompileHeaders, eq_property_of_mem hprecompiled⟩)
  · exact .inr (.inr ⟨.linkDirectories, eq_property_of_mem hdirectories⟩)

/-- The directives of a list that set a property. -/
def settersOf (p : Property) (ds : List Directive) : List Directive :=
  ds.filter fun d => d.property? == some p

theorem settersOf_append (p : Property) (ds es : List Directive) :
    settersOf p (ds ++ es) = settersOf p ds ++ settersOf p es :=
  List.filter_append ..

theorem settersOf_eq_nil {ds : List Directive} (h : ∀ d ∈ ds, d.property? = none) :
    settersOf p ds = [] := by
  apply List.filter_eq_nil_iff.2
  intro d hd
  rw [h d hd, beq_iff_eq]
  exact nofun

theorem settersOf_propertyDirectives (m : Module) (p q : Property) (values : Scoped) :
    settersOf p (propertyDirectives m q values) =
      if q = p then propertyDirectives m p values else [] := by
  unfold settersOf
  split
  · rename_i heq
    subst heq
    apply List.filter_eq_self.2
    intro d hd
    rw [eq_property_of_mem hd]
    exact beq_self_eq_true _
  · rename_i hne
    apply List.filter_eq_nil_iff.2
    intro d hd
    rw [eq_property_of_mem hd, beq_iff_eq]
    exact fun heq => hne (Option.some.inj heq)

/-- A property is set in one place of a block. -/
theorem settersOf_moduleDirectives (g : Graph) (w : Workspace) (id : ModuleId) (m : Module)
    (p : Property) :
    settersOf p (moduleDirectives g w id m) =
      propertyDirectives m p (propertyValues g id m p) := by
  have harrangement : ∀ ds, (∀ d ∈ ds, IsArrangement g w m d) → settersOf p ds = [] :=
    fun ds h => settersOf_eq_nil fun d hd => (h d hd).property?_eq_none
  have hdeclaration : settersOf p (declarationDirectives m w) = [] :=
    settersOf_eq_nil fun d hd => (isDeclaration_of_mem hd).property?_eq_none
  unfold moduleDirectives
  simp only [settersOf_append, hdeclaration, linkLibraries_eq, settersOf_propertyDirectives,
    harrangement _ fun _ => isArrangement_of_mem_options,
    harrangement _ fun _ => isArrangement_of_mem_group,
    harrangement _ fun _ => isArrangement_of_mem_place,
    harrangement _ fun _ => isArrangement_of_mem_copies,
    harrangement _ fun _ => isArrangement_of_mem_standard]
  cases p <;> simp [propertyValues]

end BuildGraph.CMake
