import BuildGraph.CMake.Project
import BuildGraph.Proofs.CMake.Blocks
import BuildGraph.Proofs.Text.OneLine
set_option autoImplicit false

/-!
# The lines of a project

The text of a block has one line for each directive, and the text of a project has those of its
preamble and of its blocks with an empty line behind each, provided that no text which a project
shows has a line break in it.
-/

namespace BuildGraph

open Text (IsLine isLine_append)

/-- The texts of a toolchain that a project shows. -/
def Toolchain.texts (t : Toolchain) : List String :=
  [t.solution, t.binaryDirectory, t.predefinedFolder]

/-- The texts of a module that a project shows. -/
def Module.texts (m : Module) : List String :=
  [m.name, m.directory, m.file] ++ m.qualifier.toList ++ m.customName.toList ++
    m.customFolder.toList ++ m.subdirectory.toList ++ CMake.declaredValues m ++ m.sources ++
    m.exportedTargets ++ m.exportedSharedLibraries ++ m.arguments ++
    m.cachedOptions.flatMap (fun o => [o.name, o.value.written]) ++
    m.toolchain.toList.flatMap Toolchain.texts

namespace CMake

variable {g : Graph} {w : Workspace} {id : ModuleId} {m : Module} {d : Directive}

/-- No text that a project shows has a line break. -/
structure OneLine (g : Graph) (w : Workspace) : Prop where
  root : IsLine w.root
  modules : ∀ m ∈ g.modules, ∀ s ∈ m.texts, IsLine s

/-! ## Pieces of directives -/

theorem isLine_terminated {values : List String} (h : ∀ v ∈ values, IsLine v) :
    IsLine (terminated values) := by
  apply Text.isLine_join.2
  intro s hs
  obtain ⟨v, hv, rfl⟩ := List.mem_map.1 hs
  exact isLine_append.2 ⟨h v hv, by decide⟩

theorem isLine_qualify {directory path : String} (hdirectory : IsLine directory)
    (hpath : IsLine path) : IsLine (qualify directory path) := by
  unfold qualify
  split
  · exact hpath
  · exact isLine_append.2 ⟨isLine_append.2 ⟨hdirectory, by decide⟩, hpath⟩

theorem isLine_groupsText {gs : Groups} (h : ∀ group ∈ gs, ∀ v ∈ group.2, IsLine v) :
    IsLine (groupsText gs) := by
  apply Text.isLine_intercalate (by decide)
  intro s hs
  obtain ⟨group, hgroup, rfl⟩ := List.mem_map.1 hs
  refine isLine_append.2 ⟨isLine_append.2 ⟨?_, by decide⟩, isLine_terminated (h group hgroup)⟩
  cases group.1 <;> decide

theorem isLine_doubledSlashes {path : String} (h : IsLine path) : IsLine (doubledSlashes path) := by
  unfold doubledSlashes IsLine
  rw [String.toList_ofList]
  intro hbreak
  obtain ⟨c, hc, hmem⟩ := List.mem_flatMap.1 hbreak
  split at hmem
  · exact absurd hmem (by decide)
  · obtain rfl := List.mem_singleton.1 hmem
    exact h hc

theorem isLine_fileName {path : String} (h : IsLine path) : IsLine (fileName path) := by
  apply h.of_mem
  intro c hc
  unfold fileName at hc
  rw [String.toList_ofList, List.mem_reverse] at hc
  exact .inr (List.mem_reverse.1 ((List.takeWhile_sublist _).mem hc))

theorem mem_of_mem_inside {root directory way : List Char} {c : Char}
    (h : inside? root directory = some way) (hc : c ∈ way) : c ∈ directory := by
  unfold inside? at h
  dsimp only at h
  split at h
  · split at h
    · rename_i rest hrest
      split at h
      · cases h
      · obtain rfl := Option.some.inj h
        have hmem : c ∈ '/' :: rest :=
          List.mem_cons_of_mem _ ((List.dropWhile_sublist _).mem hc)
        rw [← hrest] at hmem
        exact List.mem_of_mem_drop hmem
    · cases h
  · cases h

/-! ## Texts of a module -/

section Module

variable (h : ∀ s ∈ m.texts, IsLine s)

include h

theorem isLine_targetName : IsLine m.targetName := by
  unfold Module.targetName
  have hname : IsLine m.name := h _ (by simp [Module.texts])
  split
  · rename_i name hcustom
    exact h name (by simp [Module.texts, hcustom])
  · split
    · rename_i q hqualifier
      have hq : IsLine q := h q (by simp [Module.texts, hqualifier])
      split
      · exact hname
      · exact isLine_append.2 ⟨isLine_append.2 ⟨hq, by decide⟩, hname⟩
    · exact hname

theorem isLine_directory : IsLine m.directory := h _ (by simp [Module.texts])

theorem isLine_of_mem_sourcePaths {source : String} (hs : source ∈ sourcePaths m) :
    IsLine source := by
  obtain ⟨s, hmem, rfl⟩ := List.mem_map.1 hs
  have hsource : IsLine s := h s (by simp [Module.texts, hmem])
  exact (isLine_qualify (isLine_directory h) hsource).forward

theorem isLine_of_mem_startArguments {a : String} (ha : a ∈ startArguments m) : IsLine a := by
  obtain ⟨b, hb, rfl⟩ := List.mem_map.1 (List.mem_filter.1 ha).1
  exact Text.IsLine.trim (h b (by simp [Module.texts, hb]))

theorem isLine_of_declaredFolder {folder : String} (hf : m.declaredFolder? = some folder) :
    IsLine folder := by
  unfold Module.declaredFolder? at hf
  split at hf
  · obtain ⟨q, hq, rfl⟩ := Option.map_eq_some_iff.1 hf
    exact Text.IsLine.dottedToPath (h q (by simp [Module.texts, hq]))
  · split at hf
    · rename_i f hcustom
      split at hf
      · cases hf
      · obtain rfl := Option.some.inj hf
        exact Text.IsLine.dottedToPath (h f (by simp [Module.texts, hcustom]))
    · cases hf

theorem isLine_of_surroundingFolder {root parent folder : String} (hparent : IsLine parent)
    (hf : surroundingFolder? m root parent = some folder) : IsLine folder := by
  unfold surroundingFolder? at hf
  split at hf
  · rename_i way hway
    obtain rfl := Option.some.inj hf
    apply hparent.of_mem
    intro c hc
    rw [String.toList_ofList] at hc
    exact .inr (mem_of_mem_inside hway hc)
  · obtain ⟨name, hname, rfl⟩ := Option.map_eq_some_iff.1 hf
    have hname := hparent.fileName hname
    split
    · rename_i q hqualifier
      have hq : IsLine q := h q (by simp [Module.texts, hqualifier])
      exact isLine_append.2 ⟨isLine_append.2 ⟨hq, by decide⟩, hname⟩
    · exact hname

theorem isLine_of_folder {root folder : String} (hf : folder? m root = some folder) :
    IsLine folder := by
  unfold folder? at hf
  split at hf
  · rename_i f hdeclared
    obtain rfl := Option.some.inj hf
    exact isLine_of_declaredFolder h hdeclared
  · split at hf
    · rename_i parent hparent
      dsimp only at hf
      split at hf
      · cases hf
      · have hline := (isLine_directory h).parent hparent
        exact isLine_of_surroundingFolder h hline.forward hf
    · cases hf

end Module

/-! ## Lines of a block -/

theorem mem_all_of_mem_groupsOf {values : Scoped} {group : Scope × List String} {v : String}
    (hgroup : group ∈ groupsOf m values) (hv : v ∈ group.2) : v ∈ values.all := by
  obtain ⟨scope, vs⟩ := group
  unfold groupsOf at hgroup
  split at hgroup
  · obtain ⟨-, rfl, -⟩ := mem_group.1 hgroup
    exact Scoped.mem_all.2 (.inl hv)
  · split at hgroup
    · cases List.mem_append.1 hgroup with
      | inl hexposed =>
        obtain ⟨-, rfl, -⟩ := mem_group.1 hexposed
        exact Scoped.mem_all.2 (.inl hv)
      | inr hinternal =>
        obtain ⟨-, rfl, -⟩ := mem_group.1 hinternal
        exact Scoped.mem_all.2 (.inr hv)
    · exact absurd hgroup List.not_mem_nil

/-- A command is made of letters and underscores. -/
theorem Directive.all_command (d : Directive) :
    d.command.toList.all (fun c => c.isAlpha || c == '_') = true := by
  cases d with
  | property p name groups =>
    simp only [command]
    cases p <;> decide
  | _ =>
    simp only [command]
    decide

theorem Directive.not_mem_command (d : Directive) {c : Char}
    (h : (c.isAlpha || c == '_') = false) : c ∉ d.command.toList := by
  intro hc
  have hletter := List.all_eq_true.1 d.all_command c hc
  rw [h] at hletter
  cases hletter

namespace OneLine

variable (h : OneLine g w)

include h

theorem isLine_targetNameOf (k : ModuleId) : IsLine (g.targetName k) := by
  unfold Graph.targetName Graph.targetNameOf
  split
  · rename_i x hx
    exact isLine_targetName (h.modules x (List.mem_of_getElem? hx))
  · decide

theorem isLine_of_mem_propertyValues (hm : m ∈ g.modules) (p : Property) :
    ∀ v ∈ (propertyValues g id m p).all, IsLine v := by
  have htexts := h.modules m hm
  apply forall_mem_propertyValues (h.isLine_targetNameOf g.toolchain)
  · intro v hv
    exact htexts v (by simp [Module.texts, hv])
  · intro v hv
    exact isLine_qualify (isLine_directory htexts) hv

theorem isLine_of_isDeclaration (hm : m ∈ g.modules) (hd : IsDeclaration m d) :
    IsLine d.argumentText := by
  have htexts := h.modules m hm
  have hname := isLine_targetName htexts
  have hsources : IsLine (terminated (sourcePaths m)) :=
    isLine_terminated fun _ => isLine_of_mem_sourcePaths htexts
  cases hd with
  | library shared => cases shared <;> simp +decide [Directive.argumentText, hname, hsources]
  | interfaceLibrary => simp +decide [Directive.argumentText, hname]
  | subdirectory path hpath => exact htexts path (by simp [Module.texts, hpath])
  | executable windowed =>
    apply Text.isLine_intercalate (by decide)
    intro s hs
    simp only [List.mem_append, List.mem_singleton] at hs
    rcases hs with (rfl | hwindowed) | hfiles
    · exact hname
    · split at hwindowed
      · exact List.mem_singleton.1 hwindowed ▸ (by decide)
      · exact absurd hwindowed List.not_mem_nil
    · split at hfiles
      · exact absurd hfiles List.not_mem_nil
      · exact List.mem_singleton.1 hfiles ▸ hsources
  | fileTarget => simp +decide [Directive.argumentText, hname, hsources]
  | companion =>
    have hfile : IsLine m.file := htexts _ (by simp [Module.texts])
    simp +decide [Directive.argumentText, companionName, hname, hfile]

theorem isLine_of_isArrangement (hm : m ∈ g.modules) (hd : IsArrangement g w m d) :
    IsLine d.argumentText := by
  have htexts := h.modules m hm
  have hname := isLine_targetName htexts
  cases hd with
  | cacheEntry o ho =>
    have hoption : ∀ s ∈ [o.name, o.value.written], IsLine s := by
      intro s hs
      exact htexts s (List.mem_append_left _
        (List.mem_append_right _ (List.mem_flatMap.2 ⟨o, ho, hs⟩)))
    have htype : IsLine o.value.typeName := by
      unfold OptionValue.typeName
      split <;> decide
    simp +decide [Directive.argumentText, hoption o.name, hoption o.value.written, htype]
  | sourceGroup windows =>
    have hdirectory := isLine_directory htexts
    have hsources : IsLine (terminated (sourcePaths m)) :=
      isLine_terminated fun _ => isLine_of_mem_sourcePaths htexts
    cases windows with
    | false => simp +decide [Directive.argumentText, hdirectory, hsources]
    | true =>
      simp +decide [Directive.argumentText, isLine_doubledSlashes hdirectory,
        isLine_doubledSlashes hsources]
  | place folder hfolder =>
    simp +decide [Directive.argumentText, hname, isLine_of_folder htexts hfolder, h.root]
  | companionFolder folder hfolder =>
    simp +decide [Directive.argumentText, companionName, hname, isLine_of_folder htexts hfolder]
  | exportedFolder folder target hfolder htarget =>
    have hline : IsLine target := htexts target (by simp [Module.texts, htarget])
    simp +decide [Directive.argumentText, hline, isLine_of_folder htexts hfolder]
  | startArguments =>
    have harguments : IsLine (" ".intercalate (startArguments m)) :=
      Text.isLine_intercalate (by decide) fun _ => isLine_of_mem_startArguments htexts
    simp +decide [Directive.argumentText, hname, harguments]
  | copyLibrary x path hx hpath =>
    have htextsOf := h.modules x hx
    have hline : IsLine path := htextsOf path (by simp [Module.texts, hpath])
    simp +decide [Directive.argumentText, hname, isLine_fileName hline,
      isLine_qualify (isLine_directory htextsOf) hline]
  | languageStandard => simp +decide [Directive.argumentText, hname]

theorem isLine_text (hm : m ∈ g.modules) (hd : d ∈ moduleDirectives g w id m) : IsLine d.text := by
  have hcommand : IsLine d.command := d.not_mem_command (by decide)
  have harguments : IsLine d.argumentText := by
    rcases mem_moduleDirectives hd with hdeclaration | harrangement | ⟨p, rfl⟩
    · exact h.isLine_of_isDeclaration hm hdeclaration
    · exact h.isLine_of_isArrangement hm harrangement
    · have hgroups : IsLine (groupsText (groupsOf m (propertyValues g id m p))) := by
        apply isLine_groupsText
        intro group hgroup v hv
        exact h.isLine_of_mem_propertyValues hm p v (mem_all_of_mem_groupsOf hgroup hv)
      simp +decide [Directive.argumentText, isLine_targetName (h.modules m hm), hgroups]
  simp +decide [Directive.text, hcommand, harguments]

theorem isLine_of_mem_blockDirectives (hd : d ∈ blockDirectives g w id) : IsLine d.text := by
  unfold blockDirectives at hd
  split at hd
  · rename_i m hm
    split at hd
    · exact h.isLine_text (List.mem_of_getElem? hm) hd
    · exact absurd hd List.not_mem_nil
  · exact absurd hd List.not_mem_nil

/-- The lines of a block are the texts of its directives. -/
theorem linesOf_block (id : ModuleId) :
    Text.linesOf (block g w id) = (blockDirectives g w id).map Directive.text ++ [""] := by
  apply Text.linesOf_ofLines
  intro line hline
  obtain ⟨d, hd, rfl⟩ := List.mem_map.1 hline
  exact h.isLine_of_mem_blockDirectives hd

end OneLine

/-! ## Lines of a project -/

/-- The lines of the blocks of a project, with an empty line behind each block. -/
def blockLines (g : Graph) (w : Workspace) : List String :=
  g.active.flatMap fun p => (blockDirectives g w p.1).map Directive.text ++ [""]

theorem project_eq_ofLines (g : Graph) (w : Workspace) :
    project g w = Text.ofLines (preambleLines g.settings w.root ++ "" :: blockLines g w) := by
  have hblocks : String.join (g.active.map fun p => block g w p.1 ++ "\n") =
      Text.ofLines (blockLines g w) := by
    unfold blockLines block
    induction g.active with
    | nil => rfl
    | cons p ps ih =>
      rw [List.map_cons, String.join_cons, ih, List.flatMap_cons, Text.ofLines_append,
        Text.ofLines_append]
      rfl
  unfold project preamble
  rw [hblocks, Text.ofLines_append, Text.ofLines_cons, String.empty_append, String.append_assoc]

theorem isLine_of_mem_preambleLines {t : Toolchain} {root line : String}
    (ht : ∀ s ∈ t.texts, IsLine s) (hroot : IsLine root) (h : line ∈ preambleLines t root) :
    IsLine line := by
  have hsolution : IsLine t.solution := ht _ (by simp [Toolchain.texts])
  have hbinary : IsLine t.binaryDirectory := ht _ (by simp [Toolchain.texts])
  have hfolder : IsLine t.predefinedFolder := ht _ (by simp [Toolchain.texts])
  revert line
  simp +decide [preambleLines, outputDirectories, outputLine, hsolution, hbinary, hfolder, hroot]

/-- The lines of a project are those of its preamble and of its blocks. -/
theorem OneLine.linesOf_project (h : OneLine g w) (hsettings : ∀ s ∈ g.settings.texts, IsLine s) :
    Text.linesOf (project g w) =
      preambleLines g.settings w.root ++ "" :: blockLines g w ++ [""] := by
  rw [project_eq_ofLines]
  apply Text.linesOf_ofLines
  intro line hline
  rcases List.mem_append.1 hline with hpreamble | hrest
  · exact isLine_of_mem_preambleLines hsettings h.root hpreamble
  · cases List.mem_cons.1 hrest with
    | inl hempty => exact hempty ▸ (by decide)
    | inr hblocks =>
      obtain ⟨p, -, hmem⟩ := List.mem_flatMap.1 hblocks
      cases List.mem_append.1 hmem with
      | inl htext =>
        obtain ⟨d, hd, rfl⟩ := List.mem_map.1 htext
        exact h.isLine_of_mem_blockDirectives hd
      | inr hempty => exact List.mem_singleton.1 hempty ▸ (by decide)

end CMake

end BuildGraph
