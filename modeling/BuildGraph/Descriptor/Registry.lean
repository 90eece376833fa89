import BuildGraph.Descriptor.Declaration
import BuildGraph.Error
import BuildGraph.Lookup
import BuildGraph.Text.Blank
set_option autoImplicit false

/-!
# The registry of kinds

A declaration names its kind by a word. The registry says what the word means: the kind of the
module and the first step of making it. `Registry.instantiate` makes the module of a declaration:
the first step of its kind, then the declared lists, and in the end the question whether the
module takes part in the build.
-/

namespace BuildGraph

/-- The step by which the making of a module starts. -/
inductive Setup
  /-- Nothing is done. -/
  | plain
  /-- Sources are collected, and the module sees its own directory. -/
  | compiled
  /-- Sources are collected, and the library gets its export macro. -/
  | shared
  /-- The directory and the options of an included project are taken over. -/
  | native
  /-- The settings of the project are taken over. -/
  | toolchain
  deriving DecidableEq, Repr, Inhabited

/-- What a word for a kind means. -/
structure KindRule where
  kind : Kind
  setup : Setup
  deriving DecidableEq, Repr, Inhabited

/-- The words for kinds and what they mean; each word occurs once. -/
structure Registry where
  rules : List (String × KindRule)
  deriving DecidableEq, Repr, Inhabited

/-! ## First steps -/

namespace Setup

/-- The option of an included project with a value. Only texts and truth values are options. -/
def option (module : String) (entry : String × Toml.Value) : Except Error CachedOption :=
  match entry.2 with
  | .text s => .ok ⟨entry.1, .text s⟩
  | .boolean b => .ok ⟨entry.1, .switch b⟩
  | v => .error (.unsupportedOption entry.1 module v.kindName)

/-- The module whose sources are collected, if its kind is one that has sources. -/
def scanning (m : Module) : Module :=
  { m with scansSources := m.kind.traits.scansSources }

/-- The module as an included project. Its directory must be given and not be empty. -/
def included (d : Declaration) (m : Module) : Except Error Module :=
  let missing : Except Error Module := .error (.descriptor m.file (.missingSubdirectory d.name))
  match d.subdirectory with
  | none => missing
  | some directory =>
    if directory = "" then missing
    else do
      let options ← d.options.mapM (option d.name)
      return { m with
        subdirectory := some directory
        cachedOptions := m.cachedOptions ++ options }

/-- The module as a toolchain, with the usual settings where none are given. -/
def equipped (d : Declaration) (m : Module) : Module :=
  { m with toolchain := some ((d.toolchain.map ToolchainChoice.settings).getD .default) }

/-- The module after the first step. -/
def apply (s : Setup) (d : Declaration) (m : Module) : Except Error Module :=
  match s with
  | .plain => .ok m
  | .compiled =>
    .ok { scanning m with includeDirectories := m.includeDirectories.expose m.directory }
  | .shared => .ok (scanning m).addApiMacro
  | .native => included d m
  | .toolchain => .ok (equipped d m)

end Setup

/-! ## Declared lists -/

namespace Declaration

/-- The platform of a name in a descriptor. -/
def platform (file name : String) : Except Error Platform :=
  match Platform.ofName? name with
  | some p => .ok p
  | none => .error (.descriptor file (.unknownPlatform name))

/-- The values of a platform in a table by platforms, in the order of the names. -/
def valuesFor (file : String) (p : Platform) :
    List (String × List String) → Except Error (List String)
  | [] => .ok []
  | (name, values) :: rest => do
    let q ← platform file name
    let more ← valuesFor file p rest
    return (if q = p then values else []) ++ more

/-- A table by platforms in the order of the names. -/
def sorted (t : List (String × List String)) : List (String × List String) :=
  t.mergeSort fun a b => decide (a.1 ≤ b.1)

/-- Whether a list of platforms contains one; an empty list contains them all. The names behind
the first that fits are not looked at. -/
def allows (file : String) (p : Platform) : List String → Except Error Bool
  | [] => .ok true
  | names => go names
where
  /-- Whether one of the names is the platform's. -/
  go : List String → Except Error Bool
    | [] => .ok false
    | name :: rest => do
      if (← platform file name) = p then return true
      else go rest

/-- The values for editors, in a build for editors. -/
def forEditor (c : Context) (values : List String) : List String :=
  if c.editor then values else []

/-- The module with the declared lists behind those it has. -/
def addLists (d : Declaration) (file : String) (c : Context) (m : Module) :
    Except Error Module := do
  let platformDefinitions ← valuesFor file c.platform (sorted d.platformDefinitions)
  let platformDependencies ← valuesFor file c.platform (sorted d.platformDependencies)
  return { m with
    dependencies :=
      (m.dependencies.append d.dependencies).append
        ⟨forEditor c d.editorDependencies ++ platformDependencies, []⟩
    definitions :=
      (m.definitions.append d.definitions).append
        ⟨forEditor c d.editorDefinitions ++ platformDefinitions, []⟩
    includeDirectories := m.includeDirectories.append d.includeDirectories
    precompiledHeaders := m.precompiledHeaders.append d.precompiledHeaders
    linkDirectories := m.linkDirectories.append d.linkDirectories
    sources := m.sources ++ d.sources
    sourceExtensions := m.sourceExtensions ++ d.sourceExtensions
    exportedTargets := m.exportedTargets ++ d.exportedTargets
    linkableTargets := m.linkableTargets ++ d.linkableTargets
    exportsSharedLibraries := d.exportsSharedLibraries
    exportedSharedLibraries := m.exportedSharedLibraries ++ d.exportedSharedLibraries
    systemLibraries := m.systemLibraries ++ d.systemLibraries
    arguments := m.arguments ++ d.arguments }

/-- The module left out of the build, if the declaration asks for it or does not name the platform.
The platforms are not looked at when the declaration asks for it. -/
def settle (d : Declaration) (file : String) (c : Context) (m : Module) : Except Error Module :=
  if d.excluded then .ok m.exclude
  else
    (allows file c.platform d.platforms).map fun allowed => if allowed then m else m.exclude

end Declaration

/-! ## The registry -/

namespace Registry

/-- The registry without words. -/
def empty : Registry := ⟨[]⟩

/-- What a word means. -/
def find? (r : Registry) (word : String) : Option KindRule :=
  r.rules.lookup word

/-- The registry in which a word has a meaning, in place of any other. -/
def register (r : Registry) (word : String) (rule : KindRule) : Registry :=
  ⟨(word, rule) :: r.rules.filter fun p => p.1 != word⟩

/-- The words in ascending order. -/
def words (r : Registry) : List String :=
  (r.rules.map (·.1)).mergeSort fun a b => decide (a ≤ b)

/-- The registry of the usual words. -/
def standard : Registry where
  rules :=
    [("static-library", ⟨.staticLibrary, .compiled⟩),
      ("custom-library", ⟨.staticLibrary, .plain⟩),
      ("shared-library", ⟨.sharedLibrary, .shared⟩),
      ("interface", ⟨.interface, .plain⟩),
      ("native", ⟨.native, .native⟩),
      ("executable", ⟨.executable, .compiled⟩),
      ("custom-rules", ⟨.customRules, .plain⟩),
      ("toolchain", ⟨.interface, .toolchain⟩)]

/-- The module of a declaration in a file, under the qualifier of the declaration or else the one
that the file shares. -/
def instantiate (r : Registry) (c : Context) (file : String) (shared : Option String)
    (d : Declaration) : Except Error Module :=
  if Text.trim d.name = "" then .error (.descriptor file .missingName)
  else match r.find? d.kind with
    | none => .error (.unknownKind d.kind d.name)
    | some rule =>
      match Module.create? d.name rule.kind file d.attributes c with
      | none => .error (.noDirectory file)
      | some m => do
        let m := { m with qualifier := d.qualifier.or shared }
        d.settle file c (← d.addLists file c (← rule.setup.apply d m))

/-! ## Small laws -/

/-- After registering, the word has its new meaning and every other word the old one. -/
theorem find?_register (r : Registry) (word key : String) (rule : KindRule) :
    (r.register word rule).find? key = if key = word then some rule else r.find? key := by
  unfold find? register
  rw [Lookup.lookup_cons_eq_ite]
  by_cases h : key = word
  · simp [h]
  · have := Lookup.lookup_filter_key (fun k => k != word) key r.rules
    simpa [h] using this

end Registry

end BuildGraph
