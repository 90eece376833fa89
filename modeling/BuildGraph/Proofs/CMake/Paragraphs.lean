import BuildGraph.Proofs.CMake.Declarations
set_option autoImplicit false

/-!
# The paragraphs of a project

A reader cuts a project at its empty lines. He finds the preamble and then the blocks of the active
modules, one each and in their order: whatever a module lacks, its block has a line, and none of its
lines is empty.
-/

namespace BuildGraph.CMake

open Text (IsLine)

variable {g : Graph} {w : Workspace} {id : ModuleId} {m : Module}

/-- Every kind of module has a directive that depends on nothing else. -/
theorem moduleDirectives_ne_nil (g : Graph) (w : Workspace) (id : ModuleId) (m : Module) :
    moduleDirectives g w id m ≠ [] := by
  suffices hsome : declarationDirectives m w ≠ [] ∨ standardDirectives m ≠ [] by
    unfold moduleDirectives
    simp only [ne_eq, List.append_eq_nil_iff, not_and] at hsome ⊢
    grind
  cases hinterface : m.isInterfaceLike with
  | true => exact .inl (by simp [declarationDirectives, hinterface])
  | false =>
    cases hkind : m.kind with
    | interface => simp [Module.isInterfaceLike, hkind] at hinterface
    | customRules => exact .inl (by simp [declarationDirectives, kindDirectives, hkind])
    | _ => exact .inr (by simp [standardDirectives, hinterface, hkind, Kind.traits])

theorem empty_not_mem_texts (ds : List Directive) : "" ∉ ds.map Directive.text := by
  intro hmem
  obtain ⟨d, -, hd⟩ := List.mem_map.1 hmem
  exact d.text_ne_empty hd

theorem empty_not_mem_preambleLines (t : Toolchain) (root : String) :
    "" ∉ preambleLines t root := by
  simp [preambleLines, outputDirectories, outputLine, String.ext_iff]

/-- The block of a module is empty exactly if the module is left out of the build. -/
theorem block_eq_empty_iff (hm : g.modules[id]? = some m) :
    block g w id = "" ↔ m.excluded = true := by
  cases hexcluded : m.excluded with
  | true => exact iff_of_true (block_eq_empty_of_excluded hm hexcluded) rfl
  | false =>
    refine iff_of_false ?_ Bool.false_ne_true
    have hactive : m.isActive = true := by
      simp [Module.isActive, hexcluded]
    have hne := moduleDirectives_ne_nil g w id m
    rw [block, blockDirectives_eq hm hactive]
    cases hds : moduleDirectives g w id m with
    | nil => exact absurd hds hne
    | cons d ds =>
      intro hempty
      rw [List.map_cons] at hempty
      exact Text.ofLines_cons_ne_empty _ _ hempty

/-- A project is cut at its empty lines into the preamble and the blocks of the active modules. -/
theorem OneLine.paragraphsOf_project (h : OneLine g w)
    (hsettings : ∀ s ∈ g.settings.texts, IsLine s) :
    Text.paragraphsOf (project g w) =
      Text.ofLines (preambleLines g.settings w.root) :: g.active.map (block g w ·.1) ++
        ["", ""] := by
  have hlines := h.linesOf_project hsettings
  have htext : Text.linesOf (project g w) =
      (preambleLines g.settings w.root ::
        g.active.map fun p => (blockDirectives g w p.1).map Directive.text).flatMap (· ++ [""]) ++
          [""] := by
    rw [hlines, blockLines, List.flatMap_cons, List.flatMap_map]
    simp
  rw [Text.paragraphsOf_eq htext, List.map_cons, List.map_map]
  · rfl
  · intro lines hmem
    rcases List.mem_cons.1 hmem with rfl | hmem
    · exact empty_not_mem_preambleLines _ _
    · obtain ⟨p, -, rfl⟩ := List.mem_map.1 hmem
      exact empty_not_mem_texts _

section Build

variable {libraries : List String} {strict : Bool} {modules : List Module} {b : Built}

/-- In a built graph without line breaks in its texts, the block of a module is empty exactly if
the module is left out of the build, and is made of lines that are not empty otherwise. The
project, cut at its empty lines, is the preamble followed by the block of each active module in
their order. Behind the last block stands the empty line that ends the text, with nothing on
either side of it. -/
theorem project_cut_at_empty_lines (h : Graph.build libraries strict modules = .ok b)
    (hline : OneLine b.graph w) :
    (∀ (id : ModuleId) (m : Module), b.graph.modules[id]? = some m →
      (block b.graph w id = "" ↔ m.excluded = true) ∧
      (m.excluded = false → ∃ lines, block b.graph w id = Text.ofLines lines ∧ lines ≠ [] ∧
        ∀ line ∈ lines, line ≠ "" ∧ IsLine line)) ∧
    Text.paragraphsOf (project b.graph w) =
      Text.ofLines (preambleLines b.graph.settings w.root) ::
        b.graph.active.map (block b.graph w ·.1) ++ ["", ""] := by
  constructor
  · intro id m hm
    have hempty := block_eq_empty_iff (w := w) hm
    refine ⟨hempty, fun hincluded => ⟨_, rfl, fun hnil => ?_, fun line hmem => ?_⟩⟩
    · have hblock : block b.graph w id = "" := by
        rw [block, hnil]
        rfl
      rw [hempty, hincluded] at hblock
      cases hblock
    · obtain ⟨d, hd, rfl⟩ := List.mem_map.1 hmem
      exact ⟨d.text_ne_empty, hline.isLine_of_mem_blockDirectives hd⟩
  · exact hline.paragraphsOf_project (hline.isLine_settings (Graph.isGraphOf_of_build h))

end Build

/-- A toolchain, a module that is left out of the build, and one that has nothing to show. -/
def gapped : List Module :=
  [.plainToolchain "Toolchain" [], (Module.plain "Dxc" []).exclude,
    { Module.plain "Headers" [] with kind := .interface }]

theorem project_cut_at_empty_lines_gapped :
    ∃ b, Graph.build [] false gapped = .ok b ∧ OneLine b.graph (.atPath "/ws") ∧
      block b.graph (.atPath "/ws") 1 = "" ∧
      Text.paragraphsOf (project b.graph (.atPath "/ws")) =
        [Text.ofLines (preambleLines b.graph.settings (Workspace.atPath "/ws").root),
          block b.graph (.atPath "/ws") 0, block b.graph (.atPath "/ws") 2, "", ""] := by
  have hview : (Graph.build [] false gapped).toOption.map (fun b => b.graph.active.map (·.1)) =
      some [0, 2] := by
    decide +kernel
  obtain ⟨b, hb, hactive⟩ := exists_ok_of_map_eq_some hview
  have hmodules : b.graph.modules = gapped := (Graph.isGraphOf_of_build hb).modules_eq
  have hline : OneLine b.graph (.atPath "/ws") := by
    refine ⟨by decide +kernel, ?_⟩
    rw [hmodules]
    decide +kernel
  obtain ⟨hblocks, hproject⟩ := project_cut_at_empty_lines hb hline
  have hids : b.graph.active.map (block b.graph (.atPath "/ws") ·.1) =
      [0, 2].map (block b.graph (.atPath "/ws")) := by
    rw [← hactive, List.map_map]
    rfl
  have hexcluded : b.graph.modules[1]? = some (Module.plain "Dxc" []).exclude := hmodules ▸ rfl
  refine ⟨b, hb, hline, (hblocks 1 _ hexcluded).1.2 rfl, ?_⟩
  rw [hproject, hids]
  rfl

end BuildGraph.CMake
