import BuildGraph.Proofs.CMake.Reading
import BuildGraph.Proofs.Graph.Built
set_option autoImplicit false

/-!
# Properties by scope

Each property that is given by scope has at most one line in the block of a module, and the line is
read back as what the module declares: the exposed values for a target that is used like an
interface, the exposed and the internal ones for other kinds, and no line at all for a collection of
files. The read list is empty exactly if there is no line.
-/

namespace BuildGraph.CMake

variable {g : Graph} {w : Workspace} {id : ModuleId} {m : Module} {p q : Property}

/-! ## Values -/

theorem ofWord?_eq_none_of_mem {s : String} (h : '/' ∈ s.toList) : Scope.ofWord? s = none := by
  unfold Scope.ofWord?
  split
  · exact absurd h (by decide)
  · exact absurd h (by decide)
  · exact absurd h (by decide)
  · rfl

theorem isValue_qualify {directory path : String} (hdirectory : IsValue directory)
    (hpath : IsValue path) : IsValue (qualify directory path) := by
  unfold qualify
  split
  · exact hpath
  · have hmem : ∀ c, c ∈ (directory ++ "/" ++ path).toList ↔
        c ∈ directory.toList ∨ c = '/' ∨ c ∈ path.toList := by
      simp
    have hslash : '/' ∈ (directory ++ "/" ++ path).toList := (hmem '/').2 (.inr (.inl rfl))
    refine ⟨⟨?_, ?_⟩, ofWord?_eq_none_of_mem hslash⟩
    · intro hempty
      rw [hempty] at hslash
      exact absurd hslash (by decide)
    · intro c hc
      rcases (hmem c).1 hc with hc | rfl | hc
      · exact hdirectory.1.2 c hc
      · decide
      · exact hpath.1.2 c hc

/-- The name, the directory and the values of a module and the name of the toolchain can be told
apart when they are read. -/
structure Readable (g : Graph) (m : Module) : Prop where
  toolchain : IsValue (g.targetName g.toolchain)
  targetName : IsValue m.targetName
  directory : IsValue m.directory
  values : ∀ v ∈ declaredValues m, IsValue v

theorem Readable.isValue (h : Readable g m) (p : Property) :
    ∀ v ∈ (propertyValues g id m p).all, IsValue v := by
  apply forall_mem_propertyValues h.toolchain h.values
  intro v hv
  exact isValue_qualify h.directory hv

/-! ## Lines of a property -/

theorem Property.command_inj (h : p.command = q.command) : p = q := by
  cases p <;> cases q <;> first | rfl | exact absurd h (by decide)

/-- The command of a property stands only in directives that set the property. -/
theorem Directive.command_eq_iff {d : Directive} :
    d.command = p.command ↔ d.property? = some p := by
  cases d with
  | property q name groups =>
    constructor
    · intro h
      exact congrArg some (Property.command_inj h)
    · intro h
      exact congrArg Property.command (Option.some.inj h)
  | _ => cases p <;> simp [Directive.command, Property.command, Directive.property?]

/-- The lines of the block of a module that have the command of a property. -/
def settingLines (g : Graph) (w : Workspace) (id : ModuleId) (p : Property) : List String :=
  (Text.linesOf (block g w id)).filter (commandOf · == p.command)

theorem settingLines_eq_map (h : OneLine g w) (hm : g.modules[id]? = some m)
    (hactive : m.isActive = true) (p : Property) :
    settingLines g w id p =
      (propertyDirectives m p (propertyValues g id m p)).map Directive.text := by
  have hcommand : p.command ≠ "" := by
    cases p <;> decide
  have hsetters : (fun d : Directive => d.command == p.command) =
      fun d => d.property? == some p := by
    funext d
    rw [Bool.eq_iff_iff, beq_iff_eq, beq_iff_eq, Directive.command_eq_iff]
  unfold settingLines
  rw [h.filter_linesOf_block hm hactive hcommand, hsetters,
    ← settersOf_moduleDirectives g w id m p]
  rfl

/-! ## Reading a property -/

/-- The values that a line gives behind its first argument, each under its scope. -/
def scopedValues (line : String) : List (Option Scope × String) :=
  byScope none (argumentsOf line).tail

/-- What is to be read for a property with the given values. -/
def readingOf (m : Module) (values : Scoped) : List (Option Scope × String) :=
  if m.isInterfaceLike = true then values.exposed.map (some .interface, ·)
  else if m.kind = .customRules then []
  else values.exposed.map (some .exposed, ·) ++ values.internal.map (some .internal, ·)

theorem group_eq_nil_iff {scope : Scope} {values : List String} :
    group scope values = [] ↔ values = [] := by
  unfold group
  split
  · rename_i hnil
    exact iff_of_true rfl hnil
  · rename_i hne
    exact iff_of_false (List.cons_ne_nil _ _) hne

theorem scoped_group (scope : Scope) (values : List String) :
    Groups.scoped (group scope values) = values.map (some scope, ·) := by
  unfold group Groups.scoped
  split
  · rename_i hnil
    rw [hnil]
    rfl
  · rw [List.flatMap_singleton]

/-- The groups of a property hold what is to be read for it. -/
theorem scoped_groupsOf (m : Module) (values : Scoped) :
    (groupsOf m values).scoped = readingOf m values := by
  unfold groupsOf readingOf
  cases m.isInterfaceLike with
  | true => exact scoped_group _ _
  | false =>
    have hscopes :
        Groups.scoped (group .exposed values.exposed ++ group .internal values.internal) =
        values.exposed.map (some .exposed, ·) ++ values.internal.map (some .internal, ·) := by
      rw [← scoped_group, ← scoped_group]
      exact List.flatMap_append
    cases m.kind with
    | customRules => rfl
    | _ => exact hscopes

/-- There are no groups exactly if there is nothing to be read. -/
theorem groupsOf_eq_nil_iff {values : Scoped} :
    groupsOf m values = [] ↔ readingOf m values = [] := by
  unfold groupsOf readingOf
  cases m.isInterfaceLike with
  | true => simp only [if_true, group_eq_nil_iff, List.map_eq_nil_iff]
  | false =>
    cases m.kind with
    | customRules => exact iff_of_true rfl rfl
    | _ =>
      change group _ _ ++ group _ _ = [] ↔ List.map _ _ ++ List.map _ _ = []
      simp only [List.append_eq_nil_iff, group_eq_nil_iff, List.map_eq_nil_iff]

/-- The line of a property of a module. -/
def propertyLine (g : Graph) (id : ModuleId) (m : Module) (p : Property) : String :=
  (Directive.property p m.targetName (groupsOf m (propertyValues g id m p))).text

/-- A property has a line exactly if there is something to be read. -/
theorem settingLines_eq (h : OneLine g w) (hm : g.modules[id]? = some m)
    (hactive : m.isActive = true) (p : Property) :
    settingLines g w id p =
      if readingOf m (propertyValues g id m p) = [] then [] else [propertyLine g id m p] := by
  rw [settingLines_eq_map h hm hactive]
  unfold propertyDirectives
  split
  · rename_i hnil
    rw [if_pos (groupsOf_eq_nil_iff.1 hnil)]
    rfl
  · rename_i hne
    rw [if_neg fun hnil => hne (groupsOf_eq_nil_iff.2 hnil)]
    rfl

theorem argumentsOf_propertyLine (h : Readable g m) (id : ModuleId) (p : Property) :
    argumentsOf (propertyLine g id m p) =
      m.targetName :: items (groupsText (groupsOf m (propertyValues g id m p))).toList := by
  unfold propertyLine
  rw [Directive.argumentsOf_text]
  unfold Directive.argumentText
  rw [items_append_space, h.targetName.1.items_eq]
  rfl

theorem scopedValues_propertyLine (h : Readable g m) (id : ModuleId) (p : Property) :
    scopedValues (propertyLine g id m p) = readingOf m (propertyValues g id m p) := by
  unfold scopedValues
  rw [argumentsOf_propertyLine h, List.tail_cons, byScope_items_groupsText, scoped_groupsOf]
  intro values hvalues v hv
  exact h.isValue p v (mem_all_of_mem_groupsOf hvalues hv)

/-- A property of a module has at most one line in its block. The line names the target first, and
what it gives under scopes is what the module declares. There is no line exactly if there is
nothing to give, and so never for a collection of files that is not used like an interface. -/
theorem properties_read_back (h : OneLine g w) (hm : g.modules[id]? = some m)
    (hactive : m.isActive = true) (hreadable : Readable g m) (p : Property) :
    (settingLines g w id p).length ≤ 1 ∧
    (∀ line ∈ settingLines g w id p, (argumentsOf line).head? = some m.targetName) ∧
    (settingLines g w id p).flatMap scopedValues = readingOf m (propertyValues g id m p) ∧
    (settingLines g w id p = [] ↔ readingOf m (propertyValues g id m p) = []) ∧
    (m.isInterfaceLike = false → m.kind = .customRules → settingLines g w id p = []) := by
  have hcustom : m.isInterfaceLike = false → m.kind = .customRules →
      readingOf m (propertyValues g id m p) = [] := by
    intro hinterface hkind
    unfold readingOf
    rw [if_neg (by rw [hinterface]; decide), if_pos hkind]
  have hlines := settingLines_eq h hm hactive p
  split at hlines
  · rename_i hnil
    rw [hlines, hnil]
    exact ⟨Nat.zero_le 1, nofun, rfl, iff_of_true rfl rfl, fun _ _ => rfl⟩
  · rename_i hne
    rw [hlines]
    refine ⟨Nat.le_refl 1, ?_, ?_, iff_of_false (List.cons_ne_nil _ _) hne, ?_⟩
    · intro line hline
      rw [List.mem_singleton.1 hline, argumentsOf_propertyLine hreadable]
      rfl
    · rw [List.flatMap_singleton, scopedValues_propertyLine hreadable]
    · intro hinterface hkind
      exact absurd (hcustom hinterface hkind) hne

/-! ## A program with a hidden dependency -/

/-- A program in a directory of its own, with values in both scopes. -/
def viewer : Module :=
  { Module.plain "Viewer" [] with
    kind := .executable
    directory := "/ws/Viewer"
    dependencies := ⟨["Core"], ["Detail"]⟩
    includeDirectories := ⟨["include", "/opt/include"], ["src"]⟩ }

/-- A toolchain that is an interface, and the program. -/
def display : List Module :=
  [{ Module.plainToolchain "Toolchain" [] with kind := .interface }, viewer]

theorem properties_read_back_display :
    ∃ b, Graph.build ["Core", "Detail"] false display = .ok b ∧
      OneLine b.graph (.atPath "/ws") ∧ Readable b.graph viewer ∧
      (settingLines b.graph (.atPath "/ws") 1 .linkLibraries).flatMap scopedValues =
        [(some .exposed, "Core"), (some .exposed, "Toolchain"), (some .internal, "Detail")] ∧
      (settingLines b.graph (.atPath "/ws") 1 .includeDirectories).flatMap scopedValues =
        [(some .exposed, "/ws/Viewer/include"), (some .exposed, "/opt/include"),
          (some .internal, "/ws/Viewer/src")] := by
  have hview : (Graph.build ["Core", "Detail"] false display).toOption.map
      (fun b => b.graph.toolchain) = some 0 := by
    decide +kernel
  obtain ⟨b, hb, htoolchain⟩ := exists_ok_of_map_eq_some hview
  have hmodules : b.graph.modules = display := (Graph.isGraphOf_of_build hb).modules_eq
  have hname : b.graph.targetName b.graph.toolchain = "Toolchain" := by
    unfold Graph.targetName
    rw [hmodules, htoolchain]
    rfl
  have hline : OneLine b.graph (.atPath "/ws") := by
    refine ⟨by decide +kernel, ?_⟩
    rw [hmodules]
    decide +kernel
  have hreadable : Readable b.graph viewer := by
    refine ⟨?_, by decide +kernel, by decide +kernel, by decide +kernel⟩
    rw [hname]
    decide
  have hviewer : b.graph.modules[1]? = some viewer := hmodules ▸ rfl
  refine ⟨b, hb, hline, hreadable, ?_, ?_⟩
  · rw [(properties_read_back hline hviewer rfl hreadable .linkLibraries).2.2.1]
    unfold propertyValues
    rw [hname, htoolchain]
    decide +kernel
  · have hpaths : propertyValues b.graph 1 viewer .includeDirectories =
        qualified viewer viewer.includeDirectories := rfl
    rw [(properties_read_back hline hviewer rfl hreadable .includeDirectories).2.2.1, hpaths]
    decide +kernel

end BuildGraph.CMake
