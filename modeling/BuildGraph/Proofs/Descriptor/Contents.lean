import BuildGraph.Proofs.Descriptor.Platforms
import Mathlib.Data.List.Nodup
set_option autoImplicit false

/-!
# What a declaration puts into its module

A module that is made from a declaration holds the declared lists in their order. Three
properties have more in them than is declared under their names: exposed dependencies and
definitions go on with those for editors and with those for the platform of the build, a shared
library has its export macro in front of its definitions, and some kinds see their own directory
in front of the declared ones.

A module is followed through the stages of its making. It is begun with empty lists and with what
its kind has in front of the declared ones, then it holds the declared lists, and in the end it
is left out of the build or not.
-/

namespace BuildGraph

variable {c : Context} {file word : String} {shared : Option String} {d : Declaration}
  {m n : Module} {p : Platform} {table : List (String × List String)} {values : List String}

/-! ## Tables by platforms -/

namespace Declaration

/-- The values that a table gives for a platform: the lists of all names of the platform, in the
order of the names. -/
def IsShare (p : Platform) (table : List (String × List String)) (values : List String) : Prop :=
  ∃ entries : List (String × List String), entries.Perm table ∧
    entries.Pairwise (fun a b => a.1 ≤ b.1) ∧
    values = (entries.filter fun e => Platform.ofName? e.1 == some p).flatMap (·.2)

/-- Names that occur once leave no choice in what a table gives. -/
theorem IsShare.unique {values' : List String} (hnames : (table.map (·.1)).Nodup)
    (h : IsShare p table values) (h' : IsShare p table values') : values = values' := by
  obtain ⟨entries, hperm, hsorted, rfl⟩ := h
  obtain ⟨entries', hperm', hsorted', rfl⟩ := h'
  have heq : entries = entries' := by
    refine (hperm.trans hperm'.symm).eq_of_pairwise (fun a b ha hb hab hba => ?_) hsorted hsorted'
    have hname : a.1 = b.1 := String.le_antisymm hab hba
    exact List.inj_on_of_nodup_map hnames (hperm.mem_iff.1 ha) (hperm'.mem_iff.1 hb) hname
  rw [heq]

theorem platform_eq_ok_iff {name : String} :
    platform file name = .ok p ↔ Platform.ofName? name = some p := by
  unfold platform
  cases Platform.ofName? name <;> simp

theorem eq_flatMap_of_valuesFor (h : valuesFor file p table = .ok values) :
    values = (table.filter fun e => Platform.ofName? e.1 == some p).flatMap (·.2) := by
  induction table generalizing values with
  | nil =>
    obtain rfl := Except.ok.inj h
    rfl
  | cons entry table ih =>
    obtain ⟨name, own⟩ := entry
    simp only [valuesFor, bind_eq_ok_iff, platform_eq_ok_iff] at h
    obtain ⟨q, hq, more, hmore, hvalues⟩ := h
    obtain rfl := Except.ok.inj hvalues
    rw [List.filter_cons, ih hmore, hq]
    by_cases hqp : q = p <;> simp [hqp]

theorem isShare_of_valuesFor (h : valuesFor file p (sorted table) = .ok values) :
    IsShare p table values :=
  ⟨sorted table, List.mergeSort_perm table _, pairwise_sorted table, eq_flatMap_of_valuesFor h⟩

/-! ## Platforms -/

/-- The module is left out because the declaration names platforms, but not the one of the build. -/
def Omits (p : Platform) (names : List String) : Prop :=
  names ≠ [] ∧ ∀ name ∈ names, Platform.ofName? name ≠ some p

/-- A search that succeeds tells whether one of the names is the platform's. -/
theorem allows_go_eq_ok {names : List String} {b : Bool} (h : allows.go file p names = .ok b) :
    b = true ↔ ∃ name ∈ names, Platform.ofName? name = some p := by
  induction names with
  | nil =>
    obtain rfl := Except.ok.inj h
    simp
  | cons name names ih =>
    simp only [allows.go, bind_eq_ok_iff, platform_eq_ok_iff] at h
    obtain ⟨q, hq, hrest⟩ := h
    by_cases hqp : q = p
    · rw [if_pos hqp] at hrest
      obtain rfl := Except.ok.inj hrest
      simp [hq, hqp]
    · rw [if_neg hqp] at hrest
      simp [ih hrest, hq, hqp]

theorem allows_eq_ok {names : List String} {b : Bool} (h : allows file p names = .ok b) :
    b = false ↔ Omits p names := by
  cases names with
  | nil =>
    obtain rfl := Except.ok.inj h
    simp [Omits]
  | cons name names =>
    rw [← Bool.not_eq_true, allows_go_eq_ok h]
    simp [Omits]

end Declaration

/-! ## Words for kinds -/

namespace Registry

theorem setup_eq_shared_iff {rule : KindRule} (h : standard.find? word = some rule) :
    rule.setup = .shared ↔ word = "shared-library" := by
  have hall : ∀ e ∈ standard.rules, (e.2.setup = .shared ↔ e.1 = "shared-library") := by
    decide
  exact hall (word, rule) (Lookup.mem_of_lookup_eq_some h)

theorem setup_eq_compiled_iff {rule : KindRule} (h : standard.find? word = some rule) :
    rule.setup = .compiled ↔ word = "static-library" ∨ word = "executable" := by
  have hall : ∀ e ∈ standard.rules,
      (e.2.setup = .compiled ↔ e.1 = "static-library" ∨ e.1 = "executable") := by
    decide
  exact hall (word, rule) (Lookup.mem_of_lookup_eq_some h)

end Registry

/-! ## Modules before and behind the declared lists -/

namespace Module

/-- The definitions in front of the declared ones, for a word of a kind. -/
def ownDefinitions (word : String) (m : Module) : Scoped :=
  if word = "shared-library" then m.apiDefinitions else .empty

/-- The include directories in front of the declared ones, for a word of a kind. -/
def ownDirectories (word : String) (m : Module) : List String :=
  if word = "static-library" ∨ word = "executable" then [m.directory] else []

/-- The module has its names from a declaration, under the qualifier that the file shares, its
directory from the file and its platform from the build. -/
structure IsOf (c : Context) (file : String) (shared : Option String) (d : Declaration)
    (m : Module) : Prop where
  name : m.name = d.name
  qualifier : m.qualifier = d.qualifier.or shared
  customName : m.customName = d.attributes.customName
  platform : m.platform = c.platform
  directory : ∃ directory, Path.parent? file = some directory ∧
    m.directory = Path.forward directory

/-- A module before the declared lists are added. -/
structure Begun (c : Context) (file : String) (shared : Option String) (d : Declaration)
    (m : Module) : Prop extends IsOf c file shared d m where
  dependencies : m.dependencies = .empty
  definitions : m.definitions = m.ownDefinitions d.kind
  includeDirectories : m.includeDirectories = ⟨m.ownDirectories d.kind, []⟩
  precompiledHeaders : m.precompiledHeaders = .empty
  linkDirectories : m.linkDirectories = .empty
  sources : m.sources = []
  sourceExtensions : m.sourceExtensions = []
  exportedTargets : m.exportedTargets = []
  linkableTargets : m.linkableTargets = []
  exportedSharedLibraries : m.exportedSharedLibraries = []
  systemLibraries : m.systemLibraries = []
  arguments : m.arguments = []
  excluded : m.excluded = (d.attributes.editorOnly && !c.editor)

/-- A module with the declared lists. -/
structure Holds (c : Context) (file : String) (shared : Option String) (d : Declaration)
    (m : Module) : Prop extends IsOf c file shared d m where
  dependencies : ∃ values, Declaration.IsShare c.platform d.platformDependencies values ∧
    m.dependencies =
      ⟨d.dependencies.exposed ++ (if c.editor = true then d.editorDependencies else []) ++ values,
        d.dependencies.internal⟩
  definitions : ∃ values, Declaration.IsShare c.platform d.platformDefinitions values ∧
    m.definitions =
      ⟨(m.ownDefinitions d.kind).exposed ++ d.definitions.exposed ++
          (if c.editor = true then d.editorDefinitions else []) ++ values,
        (m.ownDefinitions d.kind).internal ++ d.definitions.internal⟩
  includeDirectories : m.includeDirectories =
    ⟨m.ownDirectories d.kind ++ d.includeDirectories.exposed, d.includeDirectories.internal⟩
  precompiledHeaders : m.precompiledHeaders = d.precompiledHeaders
  linkDirectories : m.linkDirectories = d.linkDirectories
  sources : m.sources = d.sources
  sourceExtensions : m.sourceExtensions = d.sourceExtensions
  exportedTargets : m.exportedTargets = d.exportedTargets
  linkableTargets : m.linkableTargets = d.linkableTargets
  exportsSharedLibraries : m.exportsSharedLibraries = d.exportsSharedLibraries
  exportedSharedLibraries : m.exportedSharedLibraries = d.exportedSharedLibraries
  systemLibraries : m.systemLibraries = d.systemLibraries
  arguments : m.arguments = d.arguments

/-- Whether a module takes part in the build is no matter of its lists. -/
theorem Holds.exclude (h : m.Holds c file shared d) : m.exclude.Holds c file shared d :=
  { h with }

end Module

/-! ## Stages -/

/-- The first step changes definitions and include directories only where it is meant to, and no
other declared list. -/
theorem Setup.apply_eq_ok {s : Setup} (h : s.apply d m = .ok n) :
    ∃ scansSources cachedOptions subdirectory toolchain, n =
      { m with
        definitions :=
          if s = .shared then m.definitions.append m.apiDefinitions else m.definitions
        includeDirectories :=
          if s = .compiled then m.includeDirectories.expose m.directory else m.includeDirectories
        scansSources, cachedOptions, subdirectory, toolchain } := by
  cases s with
  | native =>
    change Setup.included d m = .ok n at h
    unfold Setup.included at h
    split at h
    · cases h
    · split at h
      · cases h
      · obtain ⟨options, -, hn⟩ := bind_eq_ok_iff.1 h
        obtain rfl := Except.ok.inj hn
        exact ⟨_, _, _, _, rfl⟩
  | _ =>
    obtain rfl := Except.ok.inj h
    exact ⟨_, _, _, _, rfl⟩

/-- The module that is created has no lists, and the first step gives it what its kind has in
front of the declared ones. -/
theorem begun_of_apply {rule : KindRule} (hrule : Registry.standard.find? d.kind = some rule)
    (hm : Module.create? d.name rule.kind file d.attributes c = some m)
    (hn : rule.setup.apply d { m with qualifier := d.qualifier.or shared } = .ok n) :
    n.Begun c file shared d := by
  obtain ⟨scansSources, cachedOptions, subdirectory, toolchain, rfl⟩ := Setup.apply_eq_ok hn
  unfold Module.create? at hm
  split at hm
  · cases hm
  · rename_i directory hdirectory
    split at hm
    · cases hm
    · obtain rfl := Option.some.inj hm
      constructor
      case toIsOf => exact ⟨rfl, rfl, rfl, rfl, directory, hdirectory, rfl⟩
      case definitions =>
        unfold Module.ownDefinitions
        simp only [← Registry.setup_eq_shared_iff hrule]
        split <;> rfl
      case includeDirectories =>
        unfold Module.ownDirectories
        simp only [← Registry.setup_eq_compiled_iff hrule]
        split <;> rfl
      all_goals rfl

/-- The declared lists are added behind what the module has. -/
theorem Module.Begun.holds_of_addLists (h : m.Begun c file shared d)
    (hn : d.addLists file c m = .ok n) : n.Holds c file shared d ∧ n.excluded = m.excluded := by
  simp only [Declaration.addLists, bind_eq_ok_iff] at hn
  obtain ⟨definitions, hdefinitions, dependencies, hdependencies, hn⟩ := hn
  obtain rfl := Except.ok.inj hn
  refine ⟨?_, rfl⟩
  constructor
  case toIsOf => exact { h.toIsOf with }
  case dependencies =>
    refine ⟨dependencies, Declaration.isShare_of_valuesFor hdependencies, ?_⟩
    simp only [h.dependencies, Scoped.append, Scoped.empty, Declaration.forEditor, List.nil_append,
      List.append_nil, List.append_assoc]
  -- What stands in front of the declared values does not depend on the lists.
  case definitions =>
    refine ⟨definitions, Declaration.isShare_of_valuesFor hdefinitions, ?_⟩
    simp only [h.definitions, Scoped.append, Declaration.forEditor, List.append_nil,
      List.append_assoc]
    rfl
  case includeDirectories =>
    simp only [h.includeDirectories, Scoped.append, List.nil_append]
    rfl
  all_goals
    simp [h.precompiledHeaders, h.linkDirectories, h.sources, h.sourceExtensions, h.exportedTargets,
      h.linkableTargets, h.exportedSharedLibraries, h.systemLibraries, h.arguments, Scoped.append,
      Scoped.empty]

/-- In the end nothing happens to a module, or it is left out of the build. -/
theorem Declaration.settle_eq_ok (h : d.settle file c m = .ok n) :
    (n = m ∨ n = m.exclude) ∧
      (n.excluded = true ↔
        m.excluded = true ∨ d.excluded = true ∨ Omits c.platform d.platforms) := by
  unfold settle at h
  split at h
  · rename_i hexcluded
    obtain rfl := Except.ok.inj h
    exact ⟨.inr rfl, iff_of_true rfl (.inr (.inl hexcluded))⟩
  · rename_i hkept
    cases hallowed : allows file c.platform d.platforms with
    | error e => simp [hallowed, Except.map] at h
    | ok allowed =>
      rw [hallowed] at h
      obtain rfl := Except.ok.inj h
      have homits := allows_eq_ok hallowed
      cases allowed with
      | false => exact ⟨.inr rfl, iff_of_true rfl (.inr (.inr (homits.1 rfl)))⟩
      | true =>
        have hnamed : ¬ Omits c.platform d.platforms := fun h => Bool.noConfusion (homits.2 h)
        exact ⟨.inl rfl, by simp [hkept, hnamed]⟩

/-- A declaration that the usual registry accepts makes a module with exactly what it declares,
in order: behind the export macro of a shared library or the directory of a kind that sees its
own, and with the exposed dependencies and definitions for editors and for the platform at their
ends. The module is left out of the build if the declaration says so, if it is for editors alone
and the build is not, or if it names platforms without the one of the build. -/
theorem Registry.instantiate_holds (h : standard.instantiate c file shared d = .ok m) :
    m.Holds c file shared d ∧
      (m.excluded = true ↔ d.excluded = true ∨
        (d.attributes.editorOnly = true ∧ c.editor = false) ∨
        (d.platforms ≠ [] ∧ ∀ name ∈ d.platforms, Platform.ofName? name ≠ some c.platform)) := by
  obtain ⟨-, rule, hrule, created, hcreated, started, hstarted, listed, hlisted, hsettled⟩ :=
    instantiate_eq_ok_iff.1 h
  have hbegun := begun_of_apply hrule hcreated hstarted
  obtain ⟨hholds, hkept⟩ := hbegun.holds_of_addLists hlisted
  obtain ⟨hend, hexcluded⟩ := Declaration.settle_eq_ok hsettled
  constructor
  · rcases hend with rfl | rfl
    · exact hholds
    · exact hholds.exclude
  · rw [hexcluded, hkept, hbegun.excluded, Bool.and_eq_true, Bool.not_eq_true']
    exact or_left_comm

/-- A shared library of an editor, with platforms in several spellings. -/
def palette : Declaration :=
  let blank : Declaration := default
  { blank with
    name := "Palette"
    kind := "shared-library"
    attributes := { Attributes.plain with editorOnly := true }
    platforms := ["linux", "WIN64"]
    dependencies := ⟨["Base"], []⟩
    editorDependencies := ["Tools"]
    platformDependencies := [("win64", ["Dxgi"])]
    definitions := ⟨["COLOURS"], ["SECRET"]⟩
    editorDefinitions := ["EDITOR"]
    platformDefinitions := [("windows", ["WIDE"]), ("linux", ["NARROW"]), ("Win32", ["LEAN"])] }

theorem Registry.instantiate_holds_palette :
    ∃ m, standard.instantiate ⟨true, .windows⟩ "/ws/Palette/Palette.module.toml" (some "Paint")
        palette = .ok m ∧
      m.dependencies = ⟨["Base", "Tools", "Dxgi"], []⟩ ∧
      m.definitions =
        ⟨["\"PAINT_PALETTE_API=__declspec(dllimport)\"", "COLOURS", "EDITOR", "LEAN", "WIDE"],
          ["\"PAINT_PALETTE_API=__declspec(dllexport)\"", "SECRET"]⟩ ∧
      m.excluded = false := by
  have hsound : palette.IsSound standard "/ws/Palette/Palette.module.toml" :=
    ⟨by decide, ⟨⟨.sharedLibrary, .shared⟩, by decide, _, rfl⟩,
      ⟨"/ws/Palette", by decide, by decide⟩, by decide, by decide⟩
  have haccepts : standard.Accepts ⟨true, .windows⟩ "/ws/Palette/Palette.module.toml" (some "Paint")
      palette :=
    accepts_iff.2 ⟨hsound, .inr (.inr (by decide))⟩
  obtain ⟨m, hm⟩ := haccepts
  obtain ⟨hholds, hexcluded⟩ := instantiate_holds hm
  have hexport : m.apiDefinitions = ⟨["\"PAINT_PALETTE_API=__declspec(dllimport)\""],
      ["\"PAINT_PALETTE_API=__declspec(dllexport)\""]⟩ := by
    unfold Module.apiDefinitions Module.apiMacro Module.targetName
    rw [hholds.name, hholds.qualifier, hholds.customName, hholds.platform]
    decide +kernel
  have hwide : Declaration.IsShare .windows palette.platformDefinitions ["LEAN", "WIDE"] :=
    ⟨[("Win32", ["LEAN"]), ("linux", ["NARROW"]), ("windows", ["WIDE"])], by decide, by decide,
      by decide⟩
  have hdxgi : Declaration.IsShare .windows palette.platformDependencies ["Dxgi"] :=
    ⟨[("win64", ["Dxgi"])], by decide, by decide, by decide⟩
  obtain ⟨dependencies, hshare, hdependencies⟩ := hholds.dependencies
  obtain ⟨definitions, hshare', hdefinitions⟩ := hholds.definitions
  obtain rfl := hdxgi.unique (by decide) hshare
  obtain rfl := hwide.unique (by decide) hshare'
  refine ⟨m, hm, hdependencies, ?_, ?_⟩
  · rw [hdefinitions]
    unfold Module.ownDefinitions
    rw [hexport]
    rfl
  · rw [Bool.eq_false_iff, ne_eq, hexcluded]
    decide

end BuildGraph
