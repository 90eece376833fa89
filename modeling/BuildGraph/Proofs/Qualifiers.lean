import BuildGraph.Proofs.CMake.Folders
import BuildGraph.Proofs.CMake.Paragraphs
import BuildGraph.Proofs.Graph.Naming
import BuildGraph.Proofs.Graph.Narrowing
import BuildGraph.Summary
set_option autoImplicit false

/-!
# Empty qualifiers

A module with an empty qualifier has the target name of the same module without one, and whatever
goes by target names is the same for both: whether the build succeeds, its graph, its events and its
outline. Their folders are the same exactly where the qualifier is no part of them, and so are the
block, the project and the summary, which show the folders.
-/

namespace BuildGraph

open CMake

/-! ## Modules -/

/-- The other module is the same one, or the same one without its qualifier, which is empty. -/
def Module.DropsEmpty (m n : Module) : Prop :=
  n = m ∨ m.qualifier = some "" ∧ n = m.unqualified

namespace Module.DropsEmpty

variable {m n : Module} {root : String}

theorem targetName_eq (h : m.DropsEmpty n) : n.targetName = m.targetName := by
  obtain rfl | ⟨hempty, rfl⟩ := h
  · rfl
  · exact Module.targetName_unqualified hempty

theorem isActive_eq (h : m.DropsEmpty n) : n.isActive = m.isActive := by
  obtain rfl | ⟨-, rfl⟩ := h <;> rfl

theorem byTarget_eq (h : m.DropsEmpty n) : n.byTarget = m.byTarget := by
  have hname := h.targetName_eq
  obtain rfl | ⟨-, rfl⟩ := h
  · rfl
  · unfold Module.byTarget
    rw [hname]
    rfl

theorem texts_subset (h : m.DropsEmpty n) : n.texts ⊆ m.texts := by
  obtain rfl | ⟨-, rfl⟩ := h
  · exact List.Subset.refl _
  · have hdeclared : declaredValues m.unqualified = declaredValues m := rfl
    intro s hs
    simp only [Module.texts, hdeclared, List.mem_append] at hs ⊢
    simp only [Module.unqualified] at hs
    grind

/-- A module that loses its empty qualifier keeps its folder unless the qualifier is part of it. -/
theorem folder?_eq_iff (h : m.DropsEmpty n) :
    folder? n root = folder? m root ↔ (n ≠ m → ¬ QualifierShows m root) := by
  obtain rfl | ⟨hempty, rfl⟩ := h
  · simp
  · have hne : m.unqualified ≠ m := by
      intro heq
      have hnone : m.qualifier = none := (congrArg Module.qualifier heq).symm
      rw [hnone] at hempty
      cases hempty
    rw [folder?_unqualified_eq_iff hempty]
    exact ⟨fun hshows _ => hshows, fun hshows => hshows hne⟩

end Module.DropsEmpty

/-! ## Blocks -/

namespace CMake

variable {g g' : Graph} {w : Workspace} {id : ModuleId} {m n : Module}

theorem linkLibraries_byTarget (g : Graph) (id : ModuleId) (m : Module) :
    linkLibraries g.byTarget id m = linkLibraries g id m := by
  have hname : g.byTarget.targetName g.toolchain = g.targetName g.toolchain :=
    Graph.targetNameOf_map_byTarget g.modules g.toolchain
  unfold linkLibraries
  change (if id ≠ g.toolchain ∧ _ then m.dependencies.expose (g.byTarget.targetName _) else _) = _
  rw [← hname]
  rfl

theorem copyDirectives_byTarget (g : Graph) (id : ModuleId) (m : Module) :
    copyDirectives g.byTarget id m = copyDirectives g id m := by
  have hclosure : g.byTarget.closure id = g.closure id := by
    unfold Graph.closure
    rw [Graph.dependencies_byTarget]
    unfold Graph.byTarget
    rw [List.length_map]
  have hfound : (fun k => g.byTarget.modules[k]?) =
      fun k => (g.modules[k]?).map Module.byTarget :=
    funext fun k => List.getElem?_map
  unfold copyDirectives
  rw [hclosure, hfound, ← List.map_filterMap, List.flatMap_map]
  rfl

/-- The block of a module reads nothing of other modules but their target names and what they
export. -/
theorem moduleDirectives_byTarget (g : Graph) (w : Workspace) (id : ModuleId) (m : Module) :
    moduleDirectives g.byTarget w id m = moduleDirectives g w id m := by
  unfold moduleDirectives
  rw [linkLibraries_byTarget, copyDirectives_byTarget]

/-- The directives of a block in front of those that show the folder. -/
def frontDirectives (m : Module) (w : Workspace) : List Directive :=
  optionDirectives m ++ declarationDirectives m w ++ groupDirectives m

/-- The directives of a block behind those that show the folder. -/
def backDirectives (g : Graph) (id : ModuleId) (m : Module) : List Directive :=
  propertyDirectives m .linkLibraries (linkLibraries g id m) ++ copyDirectives g id m ++
    propertyDirectives m .compileDefinitions m.definitions ++
    propertyDirectives m .includeDirectories (qualified m m.includeDirectories) ++
    standardDirectives m ++
    propertyDirectives m .precompileHeaders (qualified m m.precompiledHeaders) ++
    propertyDirectives m .linkDirectories (qualified m m.linkDirectories)

theorem moduleDirectives_eq_append (g : Graph) (w : Workspace) (id : ModuleId) (m : Module) :
    moduleDirectives g w id m =
      frontDirectives m w ++ placeDirectives m w ++ backDirectives g id m := by
  simp only [moduleDirectives, frontDirectives, backDirectives, List.append_assoc]

theorem frontDirectives_eq (h : m.DropsEmpty n) : frontDirectives n w = frontDirectives m w := by
  have hname := h.targetName_eq
  obtain rfl | ⟨-, rfl⟩ := h
  · rfl
  · unfold frontDirectives declarationDirectives kindDirectives
    rw [hname]
    rfl

theorem backDirectives_eq (h : m.DropsEmpty n) : backDirectives g id n = backDirectives g id m := by
  have hname := h.targetName_eq
  obtain rfl | ⟨-, rfl⟩ := h
  · rfl
  · unfold backDirectives propertyDirectives copyDirectives standardDirectives
    rw [hname]
    rfl

theorem placeDirectives_eq (h : m.DropsEmpty n) (hfolder : folder? n w.root = folder? m w.root) :
    placeDirectives n w = placeDirectives m w := by
  unfold placeDirectives
  rw [hfolder, h.targetName_eq]
  obtain rfl | ⟨-, rfl⟩ := h <;> rfl

theorem Directive.place_text_inj {name root p q : String}
    (h : (place name p root).text = (place name q root).text) : p = q := by
  have hchars := congrArg String.toList h
  simp only [text, argumentText, command, String.toList_append, List.append_assoc,
    List.append_cancel_left_eq] at hchars
  have hfolders : p.toList = q.toList := List.append_cancel_right hchars
  exact String.ext hfolders

/-- The folder can be read from the lines that show it. -/
theorem folder?_eq_of_texts (hname : n.targetName = m.targetName)
    (h : (placeDirectives n w).map Directive.text = (placeDirectives m w).map Directive.text) :
    folder? n w.root = folder? m w.root := by
  have hhead := congrArg List.head? h
  unfold placeDirectives at hhead
  rw [hname] at hhead
  cases hn : folder? n w.root with
  | none =>
    cases hm : folder? m w.root with
    | none => rfl
    | some f => simp [hn, hm] at hhead
  | some e =>
    cases hm : folder? m w.root with
    | none => simp [hn, hm] at hhead
    | some f =>
      rw [hn, hm] at hhead
      exact congrArg some (Directive.place_text_inj (Option.some.inj hhead))

theorem moduleDirectives_eq_of_byTarget (h : g'.byTarget = g.byTarget) (w : Workspace)
    (id : ModuleId) (m : Module) : moduleDirectives g' w id m = moduleDirectives g w id m := by
  rw [← moduleDirectives_byTarget g', h, moduleDirectives_byTarget]

/-- A module that keeps its folder keeps its block. -/
theorem moduleDirectives_eq (hg : g'.byTarget = g.byTarget) (h : m.DropsEmpty n)
    (hfolder : folder? n w.root = folder? m w.root) :
    moduleDirectives g' w id n = moduleDirectives g w id m := by
  rw [moduleDirectives_eq_of_byTarget hg, moduleDirectives_eq_append, moduleDirectives_eq_append,
    frontDirectives_eq h, backDirectives_eq h, placeDirectives_eq h hfolder]

/-- The lines of a block are the same only if the folder is. -/
theorem folder?_eq_of_moduleTexts (hg : g'.byTarget = g.byTarget) (h : m.DropsEmpty n)
    (htexts : (moduleDirectives g' w id n).map Directive.text =
      (moduleDirectives g w id m).map Directive.text) : folder? n w.root = folder? m w.root := by
  rw [moduleDirectives_eq_of_byTarget hg, moduleDirectives_eq_append, moduleDirectives_eq_append,
    frontDirectives_eq h, backDirectives_eq h] at htexts
  simp only [List.map_append, List.append_assoc, List.append_cancel_left_eq,
    List.append_cancel_right_eq] at htexts
  exact folder?_eq_of_texts h.targetName_eq htexts

/-! ## Pages -/

/-- Two blocks that can be read by their lines are the same exactly if the lines are. -/
theorem block_eq_iff (hg : OneLine g w) (hg' : OneLine g' w) :
    block g' w id = block g w id ↔
      (blockDirectives g' w id).map Directive.text =
        (blockDirectives g w id).map Directive.text := by
  constructor
  · intro hblock
    have hlines := congrArg Text.linesOf hblock
    rw [hg.linesOf_block, hg'.linesOf_block] at hlines
    exact List.append_cancel_right hlines
  · exact congrArg Text.ofLines

theorem map_fst_active_eq (h : g'.byTarget = g.byTarget) :
    g'.active.map Prod.fst = g.active.map Prod.fst := by
  have hstripped : ∀ k : Graph, k.byTarget.active.map Prod.fst = k.active.map Prod.fst := by
    intro k
    unfold Graph.active Graph.byTarget
    rw [Graph.numbered_map, List.filter_map, List.map_map]
    rfl
  rw [← hstripped g', h, hstripped]

/-- With the same settings and the same modules in the build, two projects are the same if their
blocks are, and only then if they can be cut at their empty lines. -/
theorem project_eq_of_blocks (hsettings : g'.settings = g.settings)
    (hactive : g'.active.map Prod.fst = g.active.map Prod.fst)
    (hblocks : ∀ id ∈ g.active.map Prod.fst, block g' w id = block g w id) :
    project g' w = project g w := by
  have hmap : ∀ h : Graph, (h.active.map fun p => block h w p.1 ++ "\n") =
      (h.active.map Prod.fst).map fun id => block h w id ++ "\n" := by
    intro h
    rw [List.map_map]
    rfl
  unfold project
  rw [hsettings, hmap, hmap, hactive]
  refine congrArg (fun blocks => preamble g.settings w.root ++ String.join blocks) ?_
  exact List.map_congr_left fun id hid => congrArg (· ++ "\n") (hblocks id hid)

theorem blocks_eq_of_project (hg : OneLine g w) (hg' : OneLine g' w)
    (hlines : ∀ s ∈ g.settings.texts, Text.IsLine s) (hsettings : g'.settings = g.settings)
    (hactive : g'.active.map Prod.fst = g.active.map Prod.fst)
    (hproject : project g' w = project g w) :
    ∀ id ∈ g.active.map Prod.fst, block g' w id = block g w id := by
  have hparagraphs := congrArg Text.paragraphsOf hproject
  rw [hg.paragraphsOf_project hlines, hg'.paragraphsOf_project (hsettings ▸ hlines), hsettings]
    at hparagraphs
  have hblocks := (List.cons.inj (List.append_cancel_right hparagraphs)).2
  have hmap : ∀ h : Graph, h.active.map (block h w ·.1) =
      (h.active.map Prod.fst).map (block h w) := by
    intro h
    rw [List.map_map]
    rfl
  rw [hmap, hmap, hactive] at hblocks
  exact List.map_inj_left.1 hblocks

end CMake

/-! ## Summaries -/

namespace Summary

/-- Two summaries are the same if they have the same rows. -/
theorem ofGraph_eq_iff {g g' : Graph} {root : String} :
    ofGraph g' root = ofGraph g root ↔ g'.modules.map (row root) = g.modules.map (row root) := by
  have hparts : ∀ h : Graph, (ofGraph h root).headers = headers ∧
      (ofGraph h root).rows = h.modules.map (row root) := by
    intro h
    have hkept : ∀ r ∈ h.modules.map (row root), decide (r.length = headers.length) = true := by
      intro r hr
      obtain ⟨m, -, rfl⟩ := List.mem_map.1 hr
      rfl
    refine ⟨Table.headers_foldl_addRow _ _, ?_⟩
    exact (Table.rows_foldl_addRow _ _).trans (List.filter_eq_self.2 hkept)
  rw [← (hparts g').2, ← (hparts g).2]
  constructor
  · exact congrArg Table.rows
  · intro hrows
    have hheaders : (ofGraph g' root).headers = (ofGraph g root).headers :=
      (hparts g').1.trans (hparts g).1.symm
    cases hg : ofGraph g root
    cases hg' : ofGraph g' root
    rw [hg, hg'] at hrows hheaders
    dsimp only at hrows hheaders
    subst hrows hheaders
    rfl

theorem row_eq_iff {m n : Module} {root : String} (h : m.DropsEmpty n) :
    row root n = row root m ↔ folder? n root = folder? m root := by
  have hname := h.targetName_eq
  constructor
  · intro hrow
    have hshown : (folder? n root).getD noFolder = (folder? m root).getD noFolder := by
      unfold row at hrow
      simp only [List.cons.injEq] at hrow
      exact hrow.2.2.1
    by_cases hshows : n ≠ m ∧ QualifierShows m root
    · obtain rfl | ⟨hempty, rfl⟩ := h
      · rfl
      · -- A missing folder is shown by a stroke, which is neither empty nor starts with a slash.
        obtain ⟨hblank, hne⟩ | ⟨name, hslash, hplain⟩ := folder?_of_qualifierShows hempty hshows.2
        · rw [hblank] at hshown
          cases hfolder : folder? m.unqualified root with
          | none =>
            rw [hfolder] at hshown
            exact absurd hshown (by decide)
          | some f =>
            rw [hfolder] at hshown
            rw [hblank]
            exact congrArg some hshown
        · rw [hslash, hplain] at hshown ⊢
          exact congrArg some hshown
    · rw [h.folder?_eq_iff]
      exact fun hne hs => hshows ⟨hne, hs⟩
  · intro hfolder
    have hkind : kindText n = kindText m := by
      obtain rfl | ⟨-, rfl⟩ := h <;> rfl
    have hsources : n.sources = m.sources := by
      obtain rfl | ⟨-, rfl⟩ := h <;> rfl
    unfold row
    rw [hname, hfolder, hkind, hsources]

end Summary

/-! ## Builds -/

/-- The module at a position loses an empty qualifier that is part of its folder. -/
def LosesFolder (ms ns : List Module) (root : String) (id : ModuleId) : Prop :=
  ∃ m n, ms[id]? = some m ∧ ns[id]? = some n ∧ n ≠ m ∧ QualifierShows m root

section Build

variable {ms ns : List Module} {id : ModuleId} {root : String} {m n : Module}

theorem not_losesFolder_iff (hm : ms[id]? = some m) (hn : ns[id]? = some n)
    (h : m.DropsEmpty n) : ¬ LosesFolder ms ns root id ↔ folder? n root = folder? m root := by
  rw [h.folder?_eq_iff]
  constructor
  · intro hloses hne hshows
    exact hloses ⟨m, n, hm, hn, hne, hshows⟩
  · rintro hkeeps ⟨x, y, hx, hy, hne, hshows⟩
    obtain rfl := Option.some.inj (hm.symm.trans hx)
    obtain rfl := Option.some.inj (hn.symm.trans hy)
    exact hkeeps hne hshows

/-- Two lists that are related one by one hold related modules at a position, or none. -/
theorem getElem?_of_drops (h : List.Forall₂ Module.DropsEmpty ms ns) (id : ModuleId) :
    (ms[id]? = none ∧ ns[id]? = none) ∨
      ∃ m n, ms[id]? = some m ∧ ns[id]? = some n ∧ m.DropsEmpty n := by
  cases hm : ms[id]? with
  | none =>
    rw [List.getElem?_eq_none_iff, h.length_eq, ← List.getElem?_eq_none_iff] at hm
    exact .inl ⟨rfl, hm⟩
  | some m =>
    obtain ⟨n, hn, hdrops⟩ := exists_getElem?_of_forall₂ h hm
    exact .inr ⟨m, n, rfl, hn, hdrops⟩

theorem map_eq_of_drops {α : Type} {f : Module → α} (h : List.Forall₂ Module.DropsEmpty ms ns)
    (hf : ∀ m n, m.DropsEmpty n → f n = f m) : ns.map f = ms.map f := by
  symm
  rw [← List.forall₂_eq_eq_eq, List.forall₂_map_left_iff, List.forall₂_map_right_iff]
  exact h.imp fun m n hdrops => (hf m n hdrops).symm

/-- What tells modules apart by their folders alone is the same for both lists exactly if no folder
is lost. -/
theorem map_eq_iff_of_folders {α : Type} {f : Module → α} (h : List.Forall₂ Module.DropsEmpty ms ns)
    (hf : ∀ m n, m.DropsEmpty n → (f n = f m ↔ folder? n root = folder? m root)) :
    ns.map f = ms.map f ↔ ∀ id, ¬ LosesFolder ms ns root id := by
  rw [List.ext_getElem?_iff]
  refine forall_congr' fun id => ?_
  rw [List.getElem?_map, List.getElem?_map]
  obtain ⟨hm, hn⟩ | ⟨m, n, hm, hn, hdrops⟩ := getElem?_of_drops h id
  · have hkeeps : ¬ LosesFolder ms ns root id := by
      rintro ⟨x, y, hx, -⟩
      rw [hm] at hx
      cases hx
    rw [hm, hn]
    exact iff_of_true rfl hkeeps
  · rw [hm, hn, not_losesFolder_iff hm hn hdrops, Option.map_some, Option.map_some,
      Option.some.injEq]
    exact hf m n hdrops

variable {libraries : List String} {strict : Bool} {b : Built}

/-- Emptied qualifiers are not told from missing ones by target names, so that the build of the
second list succeeds too, with the same graph and the same outline. -/
theorem exists_build_of_drops (h : List.Forall₂ Module.DropsEmpty ms ns)
    (hb : Graph.build libraries strict ms = .ok b) :
    ∃ b', Graph.build libraries strict ns = .ok b' ∧ b'.byTarget = b.byTarget ∧
      b'.graph = { b.graph with modules := ns } := by
  have hstripped : ns.map Module.byTarget = ms.map Module.byTarget :=
    map_eq_of_drops h fun m n hdrops => hdrops.byTarget_eq
  obtain ⟨b', hb', hsame⟩ := Graph.exists_build_of_byTarget hstripped hb
  refine ⟨b', hb', hsame, ?_⟩
  have hmodules := (Graph.isGraphOf_of_build hb').modules_eq
  have hgraph : b'.graph.byTarget = b.graph.byTarget := congrArg Built.graph hsame
  unfold Graph.byTarget at hgraph
  cases hg : b.graph
  cases hg' : b'.graph
  rw [hg, hg'] at hgraph
  rw [hg'] at hmodules
  simp only [Graph.mk.injEq] at hgraph ⊢
  exact ⟨hmodules, hgraph.2⟩

theorem OneLine.of_drops (h : List.Forall₂ Module.DropsEmpty ms ns) {g g' : Graph} {w : Workspace}
    (hms : g.modules = ms) (hns : g'.modules = ns) (hline : OneLine g w) : OneLine g' w := by
  refine ⟨hline.root, fun n hn s hs => ?_⟩
  obtain ⟨id, hid⟩ := List.mem_iff_getElem?.1 hn
  rw [hns] at hid
  obtain ⟨m, hm, (hdrops : m.DropsEmpty n)⟩ := exists_getElem?_of_forall₂ h.flip hid
  exact hline.modules m (hms ▸ List.mem_of_getElem? hm) s (hdrops.texts_subset hs)

/-- The block of a module in the build is the same, in its directives and in its lines, exactly if
the module loses no folder. -/
theorem block_same_iff {g g' : Graph} {w : Workspace} (h : List.Forall₂ Module.DropsEmpty ms ns)
    (hg : g'.byTarget = g.byTarget) (hms : g.modules = ms) (hns : g'.modules = ns)
    (hm : ms[id]? = some m) (hactive : m.isActive = true) :
    (blockDirectives g' w id = blockDirectives g w id ↔ ¬ LosesFolder ms ns w.root id) ∧
      ((blockDirectives g' w id).map Directive.text =
        (blockDirectives g w id).map Directive.text ↔ ¬ LosesFolder ms ns w.root id) := by
  obtain ⟨n, hn, hdrops⟩ := exists_getElem?_of_forall₂ h hm
  have hbefore : blockDirectives g w id = moduleDirectives g w id m :=
    blockDirectives_eq (hms ▸ hm) hactive
  have hafter : blockDirectives g' w id = moduleDirectives g' w id n :=
    blockDirectives_eq (hns ▸ hn) (hdrops.isActive_eq.trans hactive)
  rw [hbefore, hafter, not_losesFolder_iff hm hn hdrops]
  have hsame : folder? n w.root = folder? m w.root →
      moduleDirectives g' w id n = moduleDirectives g w id m :=
    moduleDirectives_eq hg hdrops
  have hfolder : (moduleDirectives g' w id n).map Directive.text =
      (moduleDirectives g w id m).map Directive.text → folder? n w.root = folder? m w.root :=
    folder?_eq_of_moduleTexts hg hdrops
  exact ⟨⟨fun heq => hfolder (congrArg _ heq), hsame⟩, hfolder, fun heq => congrArg _ (hsame heq)⟩

/-- Folders alone tell an empty qualifier from a missing one. Where empty qualifiers are dropped,
the build still succeeds, with the same graph, events, target names and outline. The folders and the
summary stay the same exactly if no module loses a qualifier that is part of its folder, and the
block of a module in the build exactly if that module does not. The project stays the same if no
module in the build does, and, as long as it can be read by its lines, only then. A block puts a
target into a folder without a name exactly if the declaration asks for the qualifier as the folder
and the qualifier is empty. -/
theorem empty_qualifiers_show_in_folders (h : List.Forall₂ Module.DropsEmpty ms ns)
    (hb : Graph.build libraries strict ms = .ok b) :
    ∃ b', Graph.build libraries strict ns = .ok b' ∧
      b'.graph = { b.graph with modules := ns } ∧ b'.events = b.events ∧
      ns.map Module.targetName = ms.map Module.targetName ∧
      b'.graph.outline = b.graph.outline ∧
      ∀ w : Workspace,
        (ns.map (folder? · w.root) = ms.map (folder? · w.root) ↔
          ∀ id, ¬ LosesFolder ms ns w.root id) ∧
        (Summary.ofGraph b'.graph w.root = Summary.ofGraph b.graph w.root ↔
          ∀ id, ¬ LosesFolder ms ns w.root id) ∧
        (∀ id m, ms[id]? = some m → m.isActive = true →
          (blockDirectives b'.graph w id = blockDirectives b.graph w id ↔
            ¬ LosesFolder ms ns w.root id) ∧
          ((∃ d ∈ blockDirectives b.graph w id, d.shownIn? = some "") ↔
            m.qualifierAsFolder = true ∧ m.qualifier = some "")) ∧
        ((∀ id ∈ b.graph.active.map Prod.fst, ¬ LosesFolder ms ns w.root id) →
          project b'.graph w = project b.graph w) ∧
        (OneLine b.graph w → project b'.graph w = project b.graph w →
          ∀ id ∈ b.graph.active.map Prod.fst, ¬ LosesFolder ms ns w.root id) := by
  obtain ⟨b', hb', hsame, hgraph⟩ := exists_build_of_drops h hb
  have hstripped : b'.graph.byTarget = b.graph.byTarget := congrArg Built.graph hsame
  have hevents : b'.byTarget.events = b.byTarget.events := congrArg Built.events hsame
  have hms : b.graph.modules = ms := (Graph.isGraphOf_of_build hb).modules_eq
  have hns : b'.graph.modules = ns := (Graph.isGraphOf_of_build hb').modules_eq
  have hoffered : ∀ id ∈ b.graph.active.map Prod.fst,
      ∃ m, ms[id]? = some m ∧ m.isActive = true := by
    intro id hid
    obtain ⟨⟨k, m⟩, hmem, rfl⟩ := List.mem_map.1 hid
    obtain ⟨hnumbered, hactive⟩ := List.mem_filter.1 hmem
    exact ⟨m, hms ▸ mem_numbered_iff.1 hnumbered, hactive⟩
  have hsettings : b'.graph.settings = b.graph.settings := by rw [hgraph]
  have hblock : ∀ (w : Workspace) id m, ms[id]? = some m → m.isActive = true →
      (blockDirectives b'.graph w id = blockDirectives b.graph w id ↔
        ¬ LosesFolder ms ns w.root id) ∧
      ((blockDirectives b'.graph w id).map Directive.text =
        (blockDirectives b.graph w id).map Directive.text ↔ ¬ LosesFolder ms ns w.root id) :=
    fun w id m => block_same_iff h hstripped hms hns
  refine ⟨b', hb', hgraph, hevents, ?_, ?_, fun w => ⟨?_, ?_, ?_, ?_, ?_⟩⟩
  · exact map_eq_of_drops h fun m n hdrops => hdrops.targetName_eq
  · rw [← Graph.outline_byTarget, hstripped, Graph.outline_byTarget]
  · exact map_eq_iff_of_folders h fun m n _ => Iff.rfl
  · rw [Summary.ofGraph_eq_iff, hms, hns]
    exact map_eq_iff_of_folders h fun m n hdrops => Summary.row_eq_iff hdrops
  · intro id m hm hactive
    constructor
    · exact (hblock w id m hm hactive).1
    · rw [blockDirectives_eq (hms ▸ hm) hactive, exists_shownIn?_iff, folder?_eq_empty_iff]
  · intro hkeeps
    refine project_eq_of_blocks hsettings (map_fst_active_eq hstripped) fun id hid => ?_
    obtain ⟨m, hm, hactive⟩ := hoffered id hid
    exact congrArg Text.ofLines ((hblock w id m hm hactive).2.2 (hkeeps id hid))
  · intro hline hproject id hid
    have hline' := OneLine.of_drops h hms hns hline
    have hlines := hline.isLine_settings (Graph.isGraphOf_of_build hb)
    have heq := blocks_eq_of_project hline hline' hlines hsettings (map_fst_active_eq hstripped)
      hproject id hid
    obtain ⟨m, hm, hactive⟩ := hoffered id hid
    exact (hblock w id m hm hactive).2.1 ((block_eq_iff hline hline').1 heq)

end Build

/-! ## Modules outside of the workspace -/

/-- Two libraries outside of the workspace with the given qualifier. The second one asks for it as
its folder. -/
def outsiders (qualifier : Option String) : List Module :=
  [{ Module.plainToolchain "Toolchain" [] with directory := "/ws/t" },
    { Module.plain "Audio" [] with directory := "/sdk/Plugins/Audio", qualifier },
    { Module.plain "Video" [] with
      directory := "/sdk/Plugins/Video", qualifier, qualifierAsFolder := true }]

theorem exists_build_outsiders : ∃ b, Graph.build [] false (outsiders (some "")) = .ok b := by
  have hview : (Graph.build [] false (outsiders (some ""))).toOption.map (·.graph.toolchain) =
      some 0 := by
    decide +kernel
  obtain ⟨b, hb, -⟩ := exists_ok_of_map_eq_some hview
  exact ⟨b, hb⟩

theorem outsiders_drop :
    List.Forall₂ Module.DropsEmpty (outsiders (some "")) (outsiders none) :=
  .cons (.inl rfl) (.cons (.inr ⟨rfl, rfl⟩) (.cons (.inr ⟨rfl, rfl⟩) .nil))

theorem losesFolder_outsiders : LosesFolder (outsiders (some "")) (outsiders none) "/ws/" 1 := by
  refine ⟨_, _, rfl, rfl, by decide, .inr ⟨rfl, "/sdk/Plugins", "Plugins", ?_, ?_, ?_⟩⟩
  all_goals decide +kernel

theorem empty_qualifiers_show_in_folders_outside :
    ∃ b b', Graph.build [] false (outsiders (some "")) = .ok b ∧
      Graph.build [] false (outsiders none) = .ok b' ∧ b'.graph.outline = b.graph.outline ∧
      OneLine b.graph (.atPath "/ws") ∧
      project b'.graph (.atPath "/ws") ≠ project b.graph (.atPath "/ws") ∧
      ∃ d ∈ blockDirectives b.graph (.atPath "/ws") 2, d.shownIn? = some "" := by
  obtain ⟨b, hb⟩ := exists_build_outsiders
  have hmodules : b.graph.modules = outsiders (some "") := (Graph.isGraphOf_of_build hb).modules_eq
  have hline : OneLine b.graph (.atPath "/ws") := by
    refine ⟨by decide +kernel, ?_⟩
    rw [hmodules]
    decide +kernel
  have hactive : 1 ∈ b.graph.active.map Prod.fst := by
    unfold Graph.active
    rw [hmodules]
    decide +kernel
  obtain ⟨b', hb', -, -, -, houtline, hpages⟩ :=
    empty_qualifiers_show_in_folders outsiders_drop hb
  obtain ⟨-, -, hblocks, -, hproject⟩ := hpages (.atPath "/ws")
  refine ⟨b, b', hb, hb', houtline, hline, ?_, ((hblocks 2 _ rfl rfl).2).2 ⟨rfl, rfl⟩⟩
  exact fun heq => hproject hline heq 1 hactive losesFolder_outsiders

/-- An empty qualifier is not always shown like a missing one: a folder starts with a slash, and
another one is empty. -/
theorem exists_empty_qualifier_shown :
    ∃ ms ns b, List.Forall₂ Module.DropsEmpty ms ns ∧ Graph.build [] false ms = .ok b ∧
      ms.map (folder? · "/ws/") = [some "ws", some "/Plugins", some ""] ∧
      ns.map (folder? · "/ws/") = [some "ws", some "Plugins", some "Plugins"] := by
  obtain ⟨b, hb⟩ := exists_build_outsiders
  refine ⟨_, _, b, outsiders_drop, hb, ?_, ?_⟩ <;> decide +kernel

end BuildGraph
