import BuildGraph.Proofs.CMake.Reading
import BuildGraph.Proofs.Graph.Embedding
import BuildGraph.Proofs.Graph.Strictness
import Mathlib.Data.List.Nodup
import Mathlib.Data.List.Pairwise
set_option autoImplicit false

/-!
# Declared targets

A module declares a target under its own name, a companion of that name if it is used like an
interface, both or neither. A strict build makes sure that own names are distinct. It does not
compare them with those of companions, which are the only ones that can then be declared twice.
-/

namespace BuildGraph.CMake

variable {g : Graph} {w : Workspace} {id : ModuleId} {m x : Module} {d : Directive} {name : String}

/-! ## Targets of a module -/

/-- Whether a module declares a target under its own name: a library only if it has sources, an
included project never. -/
def declaresOwn (m : Module) : Bool :=
  match m.kind with
  | .staticLibrary | .sharedLibrary => !m.sources.isEmpty
  | .native => false
  | .interface | .executable | .customRules => true

/-- The targets that a module declares: its own and its companion. -/
def targets (m : Module) : List String :=
  (if declaresOwn m = true then [m.targetName] else []) ++
    if m.isInterfaceLike = true then [companionName m.targetName] else []

theorem mem_targets_iff : name ∈ targets m ↔ declaresOwn m = true ∧ name = m.targetName ∨
    m.isInterfaceLike = true ∧ name = companionName m.targetName := by
  unfold targets
  rw [List.mem_append, List.mem_ite_nil_right, List.mem_ite_nil_right, List.mem_singleton,
    List.mem_singleton]

/-- A companion is never named like the module itself. -/
theorem companionName_ne (name : String) : companionName name ≠ name := by
  intro h
  have hlength := congrArg String.length h
  have hconfig : ("Config" : String).length = 6 := by decide
  unfold companionName at hlength
  rw [String.length_append] at hlength
  omega

theorem companionName_inj {other : String} (h : companionName name = companionName other) :
    name = other := by
  unfold companionName at h
  exact (String.append_left_inj _).1 h

theorem nodup_targets (m : Module) : (targets m).Nodup := by
  unfold targets
  split <;> split <;> simp [(companionName_ne m.targetName).symm]

/-- A directive that declares a target only if there are sources for it. -/
theorem filterMap_declared_ite (hname : d.declared? = some m.targetName) :
    (if sourcePaths m = [] then [] else [d]).filterMap Directive.declared? =
      if (!m.sources.isEmpty) = true then [m.targetName] else [] := by
  unfold sourcePaths
  cases m.sources with
  | nil => rfl
  | cons source sources =>
    rw [if_neg (by rw [List.map_cons]; exact List.cons_ne_nil _ _), List.filterMap_cons_some hname]
    rfl

theorem filterMap_declared_kindDirectives (m : Module) (w : Workspace) :
    (kindDirectives m w).filterMap Directive.declared? =
      if declaresOwn m = true then [m.targetName] else [] := by
  unfold kindDirectives declaresOwn
  cases m.kind with
  | staticLibrary => exact filterMap_declared_ite rfl
  | sharedLibrary => exact filterMap_declared_ite rfl
  | native => cases m.subdirectory <;> rfl
  | _ => rfl

/-- The targets of a block are those of its module. -/
theorem filterMap_declared_moduleDirectives (g : Graph) (w : Workspace) (id : ModuleId)
    (m : Module) : (moduleDirectives g w id m).filterMap Directive.declared? = targets m := by
  have hnone : ∀ ds : List Directive, (∀ d ∈ ds, d.declared? = none) →
      ds.filterMap Directive.declared? = [] :=
    fun ds h => List.filterMap_eq_nil_iff.2 h
  have harrangement : ∀ ds : List Directive, (∀ d ∈ ds, IsArrangement g w m d) →
      ds.filterMap Directive.declared? = [] :=
    fun ds h => hnone ds fun d hd => (h d hd).declared?_eq_none
  have hproperty : ∀ p values,
      (propertyDirectives m p values).filterMap Directive.declared? = [] := by
    intro p values
    apply hnone
    intro d hd
    rw [eq_property_of_mem hd]
    rfl
  have hdeclaration : (declarationDirectives m w).filterMap Directive.declared? = targets m := by
    unfold declarationDirectives targets
    rw [List.filterMap_append, filterMap_declared_kindDirectives]
    cases m.isInterfaceLike <;> rfl
  unfold moduleDirectives
  simp only [List.filterMap_append, hdeclaration, hproperty,
    harrangement _ fun _ => isArrangement_of_mem_options,
    harrangement _ fun _ => isArrangement_of_mem_group,
    harrangement _ fun _ => isArrangement_of_mem_place,
    harrangement _ fun _ => isArrangement_of_mem_copies,
    harrangement _ fun _ => isArrangement_of_mem_standard]
  simp

/-! ## Targets of a project -/

/-- The targets that the directives of a project declare, block by block. -/
def projectTargets (g : Graph) (w : Workspace) : List String :=
  g.active.flatMap fun p => (blockDirectives g w p.1).filterMap Directive.declared?

theorem mem_active_iff : (id, m) ∈ g.active ↔ g.modules[id]? = some m ∧ m.isActive = true := by
  unfold Graph.active
  rw [List.mem_filter, mem_numbered_iff]

theorem projectTargets_eq (g : Graph) (w : Workspace) :
    projectTargets g w = g.active.flatMap fun p => targets p.2 := by
  unfold projectTargets
  rw [List.flatMap_def, List.flatMap_def]
  congr 1
  apply List.map_congr_left
  intro p hp
  obtain ⟨hm, hactive⟩ := mem_active_iff.1 hp
  rw [blockDirectives_eq hm hactive, filterMap_declared_moduleDirectives]

/-- A module declares the target that is the companion of the other one. -/
def TakesCompanion (m x : Module) : Prop :=
  m.isInterfaceLike = true ∧ declaresOwn x = true ∧ x.targetName = companionName m.targetName

/-- Modules with different names declare a target both only if one takes the companion of the
other. -/
theorem disjoint_targets_iff (hne : m.targetName ≠ x.targetName) :
    (targets m).Disjoint (targets x) ↔ ¬ TakesCompanion m x ∧ ¬ TakesCompanion x m := by
  constructor
  · intro hdisjoint
    constructor
    · intro htakes
      obtain ⟨hinterface, hown, hname⟩ := htakes
      exact hdisjoint (mem_targets_iff.2 (.inr ⟨hinterface, rfl⟩))
        (mem_targets_iff.2 (.inl ⟨hown, hname.symm⟩))
    · intro htakes
      obtain ⟨hinterface, hown, hname⟩ := htakes
      exact hdisjoint (mem_targets_iff.2 (.inl ⟨hown, hname.symm⟩))
        (mem_targets_iff.2 (.inr ⟨hinterface, rfl⟩))
  · intro h name hm hx
    rcases mem_targets_iff.1 hm with ⟨hown, rfl⟩ | ⟨hinterface, rfl⟩
    · rcases mem_targets_iff.1 hx with ⟨-, heq⟩ | ⟨hinterface, heq⟩
      · exact hne heq
      · exact h.2 ⟨hinterface, hown, heq⟩
    · rcases mem_targets_iff.1 hx with ⟨hown, heq⟩ | ⟨-, heq⟩
      · exact h.1 ⟨hinterface, hown, heq.symm⟩
      · exact hne (companionName_inj heq)

/-- An active module takes the companion of another active one. -/
def CompanionTaken (modules : List Module) : Prop :=
  ∃ m ∈ modules, ∃ x ∈ modules, m.isActive = true ∧ x.isActive = true ∧ TakesCompanion m x

theorem pairwise_active (g : Graph) : g.active.Pairwise (InvImage (· < ·) Prod.fst) :=
  (pairwise_numbered g.modules).filter _

theorem ne_of_not_repeats (hrepeats : ¬ Repeats g.modules) {p q : ModuleId × Module}
    (hp : p ∈ g.active) (hq : q ∈ g.active) (hlt : p.1 < q.1) :
    p.2.targetName ≠ q.2.targetName := by
  intro heq
  obtain ⟨hm, hmactive⟩ := mem_active_iff.1 hp
  obtain ⟨hx, hxactive⟩ := mem_active_iff.1 hq
  exact hrepeats ⟨p.1, q.1, p.2, q.2, hlt, hm, hx, hmactive, hxactive, heq⟩

theorem exists_mem_active_iff :
    (∃ p ∈ g.active, p.2 = m) ↔ m ∈ g.modules ∧ m.isActive = true := by
  constructor
  · intro h
    obtain ⟨p, hp, rfl⟩ := h
    obtain ⟨hm, hactive⟩ := mem_active_iff.1 hp
    exact ⟨List.mem_of_getElem? hm, hactive⟩
  · intro h
    obtain ⟨i, hi⟩ := List.mem_iff_getElem?.1 h.1
    exact ⟨(i, m), mem_active_iff.2 ⟨hi, h.2⟩, rfl⟩

/-- Where no target name is repeated, no target is declared twice unless it is a companion. -/
theorem nodup_projectTargets_iff (hrepeats : ¬ Repeats g.modules) :
    (projectTargets g w).Nodup ↔ ¬ CompanionTaken g.modules := by
  rw [projectTargets_eq, List.nodup_flatMap]
  constructor
  · intro h htaken
    obtain ⟨m, hm, x, hx, hmactive, hxactive, htakes⟩ := htaken
    obtain ⟨p, hp, rfl⟩ := exists_mem_active_iff.2 ⟨hm, hmactive⟩
    obtain ⟨q, hq, rfl⟩ := exists_mem_active_iff.2 ⟨hx, hxactive⟩
    have hne : p.2.targetName ≠ q.2.targetName := fun heq =>
      companionName_ne p.2.targetName (heq.trans htakes.2.2).symm
    have hsymm : Std.Symm (Function.onFun List.Disjoint fun p : ModuleId × Module => targets p.2) :=
      ⟨fun _ _ hdisjoint _ hx hm => hdisjoint hm hx⟩
    have hdisjoint := h.2.forall hp hq fun heq => hne (congrArg (·.2.targetName) heq)
    exact ((disjoint_targets_iff hne).1 hdisjoint).1 htakes
  · intro hnot
    refine ⟨fun p _ => nodup_targets p.2, ?_⟩
    apply (pairwise_active g).imp_of_mem
    intro p q hp hq hlt
    obtain ⟨hm, hmactive⟩ := exists_mem_active_iff.1 ⟨p, hp, rfl⟩
    obtain ⟨hx, hxactive⟩ := exists_mem_active_iff.1 ⟨q, hq, rfl⟩
    refine (disjoint_targets_iff (ne_of_not_repeats hrepeats hp hq hlt)).2 ⟨?_, ?_⟩
    · intro htakes
      exact hnot ⟨p.2, hm, q.2, hx, hmactive, hxactive, htakes⟩
    · intro htakes
      exact hnot ⟨q.2, hx, p.2, hm, hxactive, hmactive, htakes⟩

/-! ## Reading targets -/

/-- The commands that declare a target. -/
def declaringCommands : List String := ["add_library", "add_executable", "add_custom_target"]

/-- The target that a line declares: the first argument of a command that declares one. -/
def targetOf? (line : String) : Option String :=
  if commandOf line ∈ declaringCommands then (argumentsOf line).head? else none

/-- The targets that the lines of a text declare. -/
def targetsOf (text : String) : List String :=
  (Text.linesOf text).filterMap targetOf?

/-- A directive has such a command exactly if it declares a target. -/
theorem command_mem_declaringCommands_iff (d : Directive) :
    d.command ∈ declaringCommands ↔ d.declared? ≠ none := by
  cases d with
  | property p name groups =>
    cases p <;> simp [Directive.command, Property.command, declaringCommands, Directive.declared?]
  | _ => simp [Directive.command, declaringCommands, Directive.declared?]

theorem head?_items_of_prefix {text : List Char} (hname : IsItem name)
    (h : name.toList ++ [' '] <+: text) : (items text).head? = some name := by
  obtain ⟨rest, rfl⟩ := h
  rw [List.append_assoc, List.singleton_append, items_append_cons (by decide), hname.items_eq]
  rfl

/-- The first argument of a directive that declares a target is the name of the target. -/
theorem head?_items_argumentText (hname : IsItem name) (h : d.declared? = some name) :
    (items d.argumentText.toList).head? = some name := by
  cases d with
  | library own shared sources =>
    obtain rfl := Option.some.inj h
    exact head?_items_of_prefix hname (by simp [Directive.argumentText])
  | interfaceLibrary own =>
    obtain rfl := Option.some.inj h
    exact head?_items_of_prefix hname (by simp [Directive.argumentText])
  | executable own windowed sources =>
    obtain rfl := Option.some.inj h
    unfold Directive.argumentText
    rw [items_intercalate_space, List.append_assoc, List.singleton_append, List.flatMap_cons,
      hname.items_eq]
    rfl
  | fileTarget own sources =>
    obtain rfl := Option.some.inj h
    exact head?_items_of_prefix hname (by simp [Directive.argumentText])
  | companion own file =>
    obtain rfl := Option.some.inj h
    exact head?_items_of_prefix hname (by simp [Directive.argumentText])
  | _ => cases h

/-- The target that a directive declares is read from its line. -/
theorem targetOf?_text (hnames : ∀ name, d.declared? = some name → IsItem name) :
    targetOf? d.text = d.declared? := by
  unfold targetOf?
  rw [d.commandOf_text, d.argumentsOf_text]
  split
  · rename_i hcommand
    obtain ⟨name, hname⟩ :=
      Option.ne_none_iff_exists'.1 ((command_mem_declaringCommands_iff d).1 hcommand)
    rw [hname, head?_items_argumentText (hnames name hname) hname]
  · rename_i hcommand
    rw [command_mem_declaringCommands_iff, not_not] at hcommand
    exact hcommand.symm

theorem targetOf?_of_prefix {line : String} (command : String)
    (h : command.toList ++ ['('] <+: line.toList) (hparen : '(' ∉ command.toList)
    (hcommand : command ∉ declaringCommands) : targetOf? line = none := by
  obtain ⟨rest, hline⟩ := h
  have hread : commandOf line = command := by
    unfold commandOf
    rw [← hline, List.append_assoc, List.singleton_append, takeWhile_command hparen,
      String.ofList_toList]
  unfold targetOf?
  rw [hread, if_neg hcommand]

/-- The preamble of a project declares no target. -/
theorem targetOf?_of_mem_preambleLines (t : Toolchain) (root : String) :
    ∀ line ∈ preambleLines t root, targetOf? line = none := by
  have houtput : ∀ output, targetOf? (outputLine t root output) = none := by
    intro output
    exact targetOf?_of_prefix "set" (by simp [outputLine]) (by decide) (by decide)
  have hproject : targetOf? ("project(" ++ t.solution ++ ")") = none :=
    targetOf?_of_prefix "project" (by simp) (by decide) (by decide)
  have hfolder : targetOf? ("set_property(GLOBAL PROPERTY PREDEFINED_TARGETS_FOLDER " ++
      t.predefinedFolder ++ ")") = none :=
    targetOf?_of_prefix "set_property" (by simp) (by decide) (by decide)
  unfold preambleLines
  rw [List.forall_mem_append, List.forall_mem_map]
  refine ⟨?_, fun output _ => houtput output⟩
  simp only [List.forall_mem_cons]
  exact ⟨by decide, hproject, by decide, by decide, by decide, by decide, hfolder,
    fun _ hline => absurd hline List.not_mem_nil⟩

theorem IsItem.companionName (h : IsItem name) : IsItem (companionName name) := by
  have hmem : ∀ c, c ∈ (CMake.companionName name).toList ↔
      c ∈ name.toList ∨ c ∈ "Config".toList := by
    intro c
    unfold CMake.companionName
    rw [String.toList_append, List.mem_append]
  constructor
  · intro hempty
    have hletter := (hmem 'C').2 (.inr (by decide))
    rw [hempty] at hletter
    exact absurd hletter (by decide)
  · intro c hc
    cases (hmem c).1 hc with
    | inl hname => exact h.2 c hname
    | inr hconfig =>
      have hitem : IsItem "Config" := by decide
      exact hitem.2 c hconfig

theorem isItem_of_mem_targets (hname : IsItem m.targetName) (h : name ∈ targets m) :
    IsItem name := by
  rcases mem_targets_iff.1 h with ⟨-, rfl⟩ | ⟨-, rfl⟩
  · exact hname
  · exact hname.companionName

/-- The targets of a block are read from its lines. -/
theorem filterMap_targetOf?_moduleDirectives (hname : IsItem m.targetName) :
    ((moduleDirectives g w id m).map Directive.text).filterMap targetOf? =
      (moduleDirectives g w id m).filterMap Directive.declared? := by
  rw [List.filterMap_map]
  apply List.filterMap_congr
  intro d hd
  apply targetOf?_text
  intro name hdeclared
  have hmem : name ∈ (moduleDirectives g w id m).filterMap Directive.declared? :=
    List.mem_filterMap.2 ⟨d, hd, hdeclared⟩
  rw [filterMap_declared_moduleDirectives] at hmem
  exact isItem_of_mem_targets hname hmem

/-- The targets of a project are read from its text. -/
theorem targetsOf_project (h : OneLine g w) (hsettings : ∀ s ∈ g.settings.texts, Text.IsLine s)
    (hnames : ∀ m ∈ g.modules, m.isActive = true → IsItem m.targetName) :
    targetsOf (project g w) = projectTargets g w := by
  have hempty : targetOf? "" = none := by decide
  have hpreamble : (preambleLines g.settings w.root).filterMap targetOf? = [] :=
    List.filterMap_eq_nil_iff.2 (targetOf?_of_mem_preambleLines g.settings w.root)
  have hblocks : (blockLines g w).filterMap targetOf? = projectTargets g w := by
    unfold blockLines projectTargets
    rw [List.filterMap_flatMap, List.flatMap_def, List.flatMap_def]
    congr 1
    apply List.map_congr_left
    intro p hp
    obtain ⟨hm, hactive⟩ := mem_active_iff.1 hp
    rw [blockDirectives_eq hm hactive, List.filterMap_append,
      filterMap_targetOf?_moduleDirectives (hnames p.2 (List.mem_of_getElem? hm) hactive),
      List.filterMap_cons_none hempty, List.filterMap_nil, List.append_nil]
  unfold targetsOf
  rw [h.linesOf_project hsettings, List.filterMap_append, List.filterMap_append, hpreamble,
    List.filterMap_cons_none hempty, hblocks, List.filterMap_cons_none hempty, List.filterMap_nil,
    List.append_nil, List.nil_append]

/-! ## Strict builds -/

section Build

variable {libraries : List String} {modules : List Module} {b : Built}

/-- The settings of a built graph are those of one of its modules. -/
theorem OneLine.isLine_settings {r : Resolver} (h : OneLine g w) (hg : g.IsGraphOf r) :
    ∀ s ∈ g.settings.texts, Text.IsLine s := by
  obtain ⟨m, hm, -, hsettings⟩ := hg.toolchain_active
  have hmem : m ∈ g.modules := hg.modules_eq ▸ List.mem_of_getElem? hm
  intro s hs
  exact h.modules m hmem s (by simp [Module.texts, hsettings, hs])

/-- The targets that the project of a strict build declares are distinct exactly if no module takes
the name of the companion of another one. They are what the text of the project says, as far as its
lines and the names of targets can be told apart. -/
theorem nodup_strict_targets_iff (h : Graph.build libraries true modules = .ok b)
    (w : Workspace) :
    ((projectTargets b.graph w).Nodup ↔ ¬ CompanionTaken modules) ∧
    (OneLine b.graph w → (∀ m ∈ modules, m.isActive = true → IsItem m.targetName) →
      targetsOf (project b.graph w) = projectTargets b.graph w) := by
  have hg := Graph.isGraphOf_of_build h
  have hmodules : b.graph.modules = modules := hg.modules_eq
  have hcollisions := (Graph.of_build_strict_eq_ok h).2.1
  rw [hg.collisions_eq, takeovers_eq_nil_iff, ← hg.modules_eq] at hcollisions
  constructor
  · rw [nodup_projectTargets_iff hcollisions, hmodules]
  · intro hline hnames
    exact targetsOf_project hline (hline.isLine_settings hg) (hmodules ▸ hnames)

end Build

/-! ## A library named like a companion -/

/-- An interface and a library with the name of its companion and the given sources. -/
def neighbours (sources : List String) : List Module :=
  [{ Module.plainToolchain "Core" [] with kind := .interface },
    { Module.plain "CoreConfig" [] with kind := .staticLibrary, sources }]

theorem exists_strict_build_neighbours {sources : List String}
    (h : sources = [] ∨ sources = ["Config.cpp"]) :
    ∃ b, Graph.build [] true (neighbours sources) = .ok b ∧ OneLine b.graph (.atPath "/ws") := by
  have hview : (Graph.build [] true (neighbours sources)).toOption.map
      (fun b => b.graph.modules) = some (neighbours sources) := by
    rcases h with rfl | rfl <;> decide
  obtain ⟨b, hb, hmodules⟩ := exists_ok_of_map_eq_some hview
  refine ⟨b, hb, by decide, ?_⟩
  rw [hmodules]
  rcases h with rfl | rfl <;> decide

theorem isItem_targetName_neighbours (sources : List String) :
    ∀ m ∈ neighbours sources, m.isActive = true → IsItem m.targetName := by
  intro m hm _
  rcases List.mem_cons.1 hm with rfl | hm
  · exact (by decide : IsItem "Core")
  · rw [List.mem_singleton.1 hm]
    exact (by decide : IsItem "CoreConfig")

/-- A strict build lets a library with sources declare the companion of an interface once more. -/
theorem exists_target_declared_twice :
    ∃ b, Graph.build [] true (neighbours ["Config.cpp"]) = .ok b ∧
      ¬ (targetsOf (project b.graph (.atPath "/ws"))).Nodup := by
  obtain ⟨b, hb, hline⟩ := exists_strict_build_neighbours (.inr rfl)
  have hg := Graph.isGraphOf_of_build hb
  have hmodules : b.graph.modules = neighbours ["Config.cpp"] := hg.modules_eq
  refine ⟨b, hb, ?_⟩
  rw [targetsOf_project hline (hline.isLine_settings hg)
    (hmodules ▸ isItem_targetName_neighbours _), projectTargets_eq]
  have hactive : b.graph.active = Graph.numbered (neighbours ["Config.cpp"]) := by
    unfold Graph.active
    rw [hmodules]
    rfl
  rw [hactive]
  decide +kernel

/-- Without sources the library declares no target, and the companion stays alone. -/
theorem nodup_strict_targets_neighbours :
    ∃ b, Graph.build [] true (neighbours []) = .ok b ∧ ¬ CompanionTaken (neighbours []) ∧
      OneLine b.graph (.atPath "/ws") ∧
      (targetsOf (project b.graph (.atPath "/ws"))).Nodup := by
  obtain ⟨b, hb, hline⟩ := exists_strict_build_neighbours (.inl rfl)
  have htaken : ¬ CompanionTaken (neighbours []) := by
    unfold CompanionTaken TakesCompanion
    decide +kernel
  obtain ⟨hnodup, hread⟩ := nodup_strict_targets_iff hb (.atPath "/ws")
  refine ⟨b, hb, htaken, hline, ?_⟩
  rw [hread hline (isItem_targetName_neighbours [])]
  exact hnodup.2 htaken

end BuildGraph.CMake
