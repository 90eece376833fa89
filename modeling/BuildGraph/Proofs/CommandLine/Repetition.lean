import BuildGraph.Proofs.CommandLine.Confinement
import BuildGraph.Proofs.CommandLine.Rehearsal
import BuildGraph.Proofs.Workspace.Rereading
set_option autoImplicit false

/-!
# Runs that are repeated

A run that is repeated at once finds the tree with the project in it. The directory is there,
each link that can be made has found its place, and writing the same text once more changes
nothing: as long as what the run missed is still missing and the text is in a file of its own,
the second run ends as the first one did, with the same text, if it loads the same workspace. It
does so exactly if no active module collects the text as one of its sources.

A module does collect it when it stands above the directory of the project and looks for files
with the extension of the text. Directories that are ignored in the search for descriptors are
not ignored there.
-/

namespace BuildGraph

open FileTree

namespace FileTree

variable {t t' t'' : FileTree} {path : String}

theorem Grows.trans_keeps (h : Grows t t') (hk : Keeps t' t'') : Keeps t t'' :=
  fun l n hget => hk l n (h l n hget)

end FileTree

namespace CMake

variable {t : FileTree} {o : Output} {text : String} {l : Location}

namespace Output

/-- Where the text is in its file, writing it changes nothing. -/
theorem write_of_locate (hmade : t.isDirectory o.directory = true)
    (h : t.locate o.file = .ok (l, .file text.toUTF8)) : o.write text t = ⟨t, .ok o.file⟩ := by
  rw [write_of_isDirectory hmade, writeText_eq_self h]

end Output

end CMake

namespace CommandLine

open CMake

variable {t t' : FileTree} {cwd : String} {o : Options} {s : Loaded} {l : Location}

/-! ## What a run leaves to the next one -/

/-- What a run has left behind that has written its text at a place. -/
structure HasWritten (t t' : FileTree) (s : Loaded) (l : Location) : Prop where
  grows : GrowsBut l t t'
  made : t'.isDirectory s.output.directory = true
  text : t'.locate s.output.file = .ok (l, .file s.project.toUTF8)
  /-- Each link has its place, or had no target. -/
  linked : ∀ link ∈ s.output.plannedLinks s.built.graph,
    t'.isTaken link.path = true ∨ t.exists? link.target = false

theorem exists_hasWritten_of_write {linking : Linking} {file : String}
    (hlinks : s.output.linkModules s.built.graph t = linking) (hlinked : linking.error? = none)
    (hok : (s.output.write s.project linking.tree).result = .ok file) :
    ∃ l, HasWritten t (s.output.write s.project linking.tree).tree s l := by
  have hadds := Output.linkModules_adds s.output s.built.graph t
  have hmade := Output.isDirectory_linkModules (hlinks ▸ hlinked)
  have hsettled := Output.settled_linkModules (hlinks ▸ hlinked)
  rw [hlinks] at hadds hmade hsettled
  obtain ⟨hkeeps, l, htext, hother⟩ := Output.tree_write_of_ok hmade hok
  refine ⟨l, ⟨hadds.grows.trans_keeps hkeeps, fun k hk n hget => ?_, fun k hk content hget => ?_⟩,
    isDirectory_of_keeps hmade hkeeps, htext, fun link hlink => ?_⟩
  · exact (hother k hk).trans (hadds.grows k n hget)
  · exact (Output.file_iff_of_adds hadds k content).1 ((hother k hk).symm.trans hget)
  · exact (hsettled link hlink).imp_left fun htaken => isTaken_of_keeps htaken hkeeps

theorem exists_hasWritten (hload : load t cwd o = .ok s) (hwet : o.has .dryRun = false)
    (hcode : (run t cwd o).code = 0) : ∃ l, HasWritten t (run t cwd o).tree s l := by
  have hends := ends_run t cwd o
  generalize failure? t cwd o = e?, run t cwd o = out at hends hcode ⊢
  cases hends with
  | unloaded | unlinked | unwritten => cases hcode
  | shown _ hdry =>
    rw [hwet] at hdry
    cases hdry
  | written hload' _ hlinks hlinked hok =>
    obtain rfl := Except.ok.inj (hload.symm.trans hload')
    -- The tree is taken out of the outcome first: unification would unfold the writing to find it.
    dsimp only
    exact exists_hasWritten_of_write hlinks hlinked hok

/-- The paths at which a run looks whether there is something: its root and its settings, the
directories of the active modules and the targets of their links. -/
def Loaded.asked (s : Loaded) : List String :=
  [s.workspace.root, Path.join s.root Workspace.Settings.fileName] ++
    (s.built.graph.modules.filter Module.isActive).map (·.directory) ++
    (s.output.plannedLinks s.built.graph).map (·.target)

/-- The paths of the settings and of all descriptors below the root. -/
def Loaded.described (t : FileTree) (s : Loaded) : List String :=
  Path.join s.root Workspace.Settings.fileName ::
    Workspace.descriptorFiles t s.workspace.root []

/-- The project has come in beside everything that a run looks at. -/
structure IsApart (t t' : FileTree) (s : Loaded) : Prop where
  /-- What the run asked for and missed is still missing. -/
  missing : ∀ path ∈ s.asked, t'.exists? path = true → t.exists? path = true
  /-- No link stands where the file of the text should be. -/
  unlinked : ∀ d target, t'.locate s.output.directory = .ok (d, .directory) →
    t'.get? (d ++ [Output.fileName]) ≠ some (.link target)
  /-- Neither settings nor a descriptor are read from the file of the text. -/
  unread : ∀ l n, t'.locate s.output.file = .ok (l, n) →
    ∀ path ∈ s.described t, ∀ n', t'.locate path ≠ .ok (l, n')

/-- Each active module that looks for the file of the text has it among its sources. -/
def Loaded.HasListedText (t t' : FileTree) (s : Loaded) : Prop :=
  ∀ l n, t'.locate s.output.file = .ok (l, n) →
    ∀ m ∈ s.built.graph.modules, m.isActive = true → m.HasListed t l

/-! ## Loading again -/

theorem load_eq_ok_iff : load t cwd o = .ok s ↔
    ∃ l n settings, t.locate (Path.join cwd o.root) = .ok (l, n) ∧
      Workspace.Settings.load t l.path = .ok settings ∧
      (workspaceOf o l.path settings).graph t settings = .ok s.built ∧
      s.root = l.path ∧ s.workspace = workspaceOf o l.path settings := by
  obtain ⟨root, w, b⟩ := s
  constructor
  · intro h
    unfold load loadAlong at h
    split at h
    · cases h
    · rename_i l n hlocate
      dsimp only at h
      split at h
      · cases h
      · rename_i settings hsettings
        split at h
        · cases h
        · rename_i b' hgraph
          obtain ⟨rfl, rfl, rfl⟩ := Loaded.mk.inj (Except.ok.inj h)
          exact ⟨l, n, settings, hlocate, hsettings, hgraph, rfl, rfl⟩
  · intro h
    obtain ⟨l, n, settings, hlocate, hsettings, hgraph, rfl, rfl⟩ := h
    unfold Workspace.graph at hgraph
    simp only [load, loadAlong, hlocate, hsettings, hgraph]

theorem HasWritten.isReread (h : HasWritten t t' s l) (hapart : IsApart t t' s) :
    Workspace.IsReread l t t' s.workspace.root where
  grows := h.grows
  isFile := ⟨_, (holds_of_resolve (locate_eq_ok_iff.1 h.text)).1⟩
  named := by
    obtain ⟨d, hlocate⟩ := isDirectory_iff.1 h.made
    obtain rfl | ⟨⟨target, hlink⟩, -⟩ := eq_or_isStrayText
      (getLast?_directory_ofRoot s.root s.built.graph.settings) (by decide) hlocate h.text
    · exact List.getLast?_concat
    · exact absurd hlink (hapart.unlinked d target hlocate)
  missing := hapart.missing _ (by simp [Loaded.asked])
  elsewhere path hpath := hapart.unread l _ h.text path (List.mem_cons_of_mem _ hpath)

/-- The same workspace is loaded exactly if each active module that looks for the text has it
among its sources. -/
theorem HasWritten.load_eq_iff (h : HasWritten t t' s l) (hapart : IsApart t t' s)
    (hload : load t cwd o = .ok s) : load t' cwd o = .ok s ↔ s.HasListedText t t' := by
  obtain ⟨k, n, settings, hlocate, hsettings, hgraph, hroot, hworkspace⟩ := load_eq_ok_iff.1 hload
  obtain ⟨n', hresolve'⟩ := exists_resolve_of_keeps (locate_eq_ok_iff.1 hlocate) h.grows.keeps
  have hlocate' := locate_eq_ok_iff.2 hresolve'
  have hsettings' : Workspace.Settings.load t' k.path = .ok settings := by
    rw [← hsettings, ← hroot]
    exact Workspace.Settings.load_eq h.grows (hapart.missing _ (by simp [Loaded.asked]))
      (hapart.unread l _ h.text _ List.mem_cons_self)
  have hlisted : s.HasListedText t t' ↔
      ∀ m ∈ s.built.graph.modules, m.isActive = true → m.HasListed t l := by
    refine ⟨fun hall => hall l _ h.text, fun hall l' n' htext => ?_⟩
    obtain ⟨rfl, -⟩ := Prod.mk.inj (Except.ok.inj (h.text.symm.trans htext))
    exact hall
  rw [← hworkspace] at hgraph
  have hagain := (h.isReread hapart).graph_eq_iff (fun m hm hactive =>
    hapart.missing m.directory (by simp [Loaded.asked]; grind)) hgraph
  rw [hlisted, ← hagain]
  constructor
  · intro hload'
    obtain ⟨k', _, settings', hk', hs', hgraph', -, hworkspace'⟩ := load_eq_ok_iff.1 hload'
    obtain ⟨rfl, -⟩ := Prod.mk.inj (Except.ok.inj (hlocate'.symm.trans hk'))
    rw [hsettings'] at hs'
    obtain rfl := Except.ok.inj hs'
    rw [hworkspace']
    exact hgraph'
  · intro hgraph'
    rw [hworkspace] at hgraph'
    exact load_eq_ok_iff.2 ⟨k, n', settings, hlocate', hsettings', hgraph', hroot, hworkspace⟩

/-! ## Running again -/

/-- With the same workspace, making the links and writing the text once more succeeds and changes
nothing. -/
theorem HasWritten.generate_again (h : HasWritten t t' s l) (hapart : IsApart t t' s)
    (o : Options) :
    (generate t' o s).code = 0 ∧ (generate t' o s).tree = t' := by
  have hsettled : ∀ link ∈ s.output.plannedLinks s.built.graph,
      t'.isTaken link.path = true ∨ t'.exists? link.target = false := by
    intro link hlink
    refine (h.linked link hlink).imp_right fun hmissing => Bool.eq_false_iff.2 fun hexists => ?_
    have hasked : link.target ∈ s.asked :=
      List.mem_append_right _ (List.mem_map_of_mem hlink)
    rw [hapart.missing _ hasked hexists] at hmissing
    cases hmissing
  obtain ⟨herror, htree, -⟩ := Output.linkModules_of_settled h.made hsettled
  have hwrite := Output.write_of_locate h.made h.text
  unfold generate
  simp only [herror, htree, hwrite, and_self]

theorem readText_of_run (hload : load t cwd o = .ok s) (hwet : o.has .dryRun = false)
    (hcode : (run t cwd o).code = 0) :
    (run t cwd o).tree.readText s.output.file = .ok s.project := by
  obtain ⟨l, hwritten⟩ := exists_hasWritten hload hwet hcode
  exact readText_of_locate hwritten.text

theorem run_of_load (hload : load t cwd o = .ok s) (hwet : o.has .dryRun = false) :
    run t cwd o = generate t o s := by
  unfold load at hload
  simp only [run, runAlong, hload, hwet, Bool.false_eq_true, if_false]

/-- A dry run that succeeds is the same when it is repeated. After any other run that succeeds,
let nothing that it missed have come in, and let the text be in a file of its own. Then loading
once more gives the same workspace exactly if each active module that looks for the text as a
source has it listed already; and in that case the second run succeeds and changes nothing, so
that the text is the same. -/
theorem run_again (hcode : (run t cwd o).code = 0) :
    ∃ s, load t cwd o = .ok s ∧
      (o.has .dryRun = true → run (run t cwd o).tree cwd o = run t cwd o) ∧
      (o.has .dryRun = false → IsApart t (run t cwd o).tree s →
        (load (run t cwd o).tree cwd o = .ok s ↔ s.HasListedText t (run t cwd o).tree) ∧
        (s.HasListedText t (run t cwd o).tree →
          (run (run t cwd o).tree cwd o).code = 0 ∧
          (run (run t cwd o).tree cwd o).tree = (run t cwd o).tree ∧
          (run t cwd o).tree.readText s.output.file = .ok s.project)) := by
  obtain ⟨s, hload⟩ := exists_loadAlong_eq_ok_of_code hcode
  refine ⟨s, hload, fun hdry => by rw [tree_run_of_dryRun hdry], fun hwet hapart => ?_⟩
  obtain ⟨l, hwritten⟩ := exists_hasWritten hload hwet hcode
  have hagain := hwritten.load_eq_iff hapart hload
  refine ⟨hagain, fun hlisted => ?_⟩
  obtain ⟨hcode', htree'⟩ := hwritten.generate_again hapart o
  have hrun := run_of_load (hagain.2 hlisted) hwet
  exact ⟨hrun ▸ hcode', hrun ▸ htree', readText_of_run hload hwet hcode⟩

/-! ## Modules above the directory of the project -/

/-- A workspace with a toolchain and a module beside it that looks for files with an extension in
the whole workspace. -/
def searchedTree (ext : String) : FileTree :=
  ([(["ws"], .directory),
    (["ws", "t.module.toml"], .file ("[[module]]\nname = \"Tools\"\nkind = \"toolchain\"\n\n" ++
      "[[module]]\nname = \"Notes\"\nkind = \"custom-rules\"\n" ++
      "source_extensions = [\"" ++ ext ++ "\"]\n").toUTF8)] :
      List (Location × Node)).foldl (fun t p => t.put p.1 p.2) .empty

theorem load_searched : (load (searchedTree "hlsl") "/" ⟨"/ws", []⟩).toOption.map (fun s =>
    (s.asked, s.described (searchedTree "hlsl"), s.output.file,
      s.built.graph.modules.all fun m => !Module.hasExtension m.wantedExtensions Output.fileName)) =
    some (["/ws/", "/ws/kbt.toml", "/ws", "/ws", "/ws/Tools"],
      ["/ws/kbt.toml", "/ws/t.module.toml"],
      "/ws/Intermediate/ProjectFiles/CMakeLists.txt", true) := by
  decide +kernel

/-- The location of the text in the small workspaces here. -/
def searchedPlace : Location :=
  ["ws", "Intermediate", "ProjectFiles", "CMakeLists.txt"]

theorem run_searched : (run (searchedTree "hlsl") "/" ⟨"/ws", []⟩).code = 0 ∧
    ["/ws/", "/ws/kbt.toml", "/ws", "/ws", "/ws/Tools"].all (fun path =>
      !(run (searchedTree "hlsl") "/" ⟨"/ws", []⟩).tree.exists? path ||
        (searchedTree "hlsl").exists? path) = true ∧
    ((run (searchedTree "hlsl") "/" ⟨"/ws", []⟩).tree.locate
      "/ws/Intermediate/ProjectFiles/CMakeLists.txt").toOption.map (·.1) = some searchedPlace ∧
    ["/ws/kbt.toml", "/ws/t.module.toml"].all (fun path =>
      ((run (searchedTree "hlsl") "/" ⟨"/ws", []⟩).tree.locate path).toOption.map (·.1) !=
        some searchedPlace) = true ∧
    ((run (searchedTree "hlsl") "/" ⟨"/ws", []⟩).tree.nodes.all fun p =>
      p.2 matches .directory | .file _) = true := by
  decide +kernel

/-- A module that looks for other files lists the text in no run. -/
theorem run_again_searched : (run (searchedTree "hlsl") "/" ⟨"/ws", []⟩).code = 0 ∧
    ∃ s, load (searchedTree "hlsl") "/" ⟨"/ws", []⟩ = .ok s ∧
      IsApart (searchedTree "hlsl") (run (searchedTree "hlsl") "/" ⟨"/ws", []⟩).tree s ∧
      s.HasListedText (searchedTree "hlsl") (run (searchedTree "hlsl") "/" ⟨"/ws", []⟩).tree ∧
      load (run (searchedTree "hlsl") "/" ⟨"/ws", []⟩).tree "/" ⟨"/ws", []⟩ = .ok s ∧
      (run (run (searchedTree "hlsl") "/" ⟨"/ws", []⟩).tree "/" ⟨"/ws", []⟩).code = 0 := by
  obtain ⟨hcode, hasked, hplace, hdescribed, hlinks⟩ := run_searched
  obtain ⟨s, hload, -, hagain⟩ := run_again hcode
  obtain ⟨s', hload', hview⟩ := exists_ok_of_map_eq_some load_searched
  obtain rfl := Except.ok.inj (hload.symm.trans hload')
  simp only [Prod.mk.injEq] at hview
  obtain ⟨haskedPaths, hdescribedPaths, hfile, hmodules⟩ := hview
  generalize (run (searchedTree "hlsl") "/" ⟨"/ws", []⟩).tree = t' at *
  have hlocated : ∀ l n, t'.locate s.output.file = .ok (l, n) → l = searchedPlace := by
    intro l n hlocate
    rw [← hfile, hlocate] at hplace
    exact Option.some.inj hplace
  have hapart : IsApart (searchedTree "hlsl") t' s := by
    refine ⟨fun path hpath hexists => ?_, fun d target _ hlink => ?_,
      fun l n htext path hpath n' hread => ?_⟩
    · rw [haskedPaths] at hpath
      have hmissing := List.all_eq_true.1 hasked path hpath
      rwa [hexists, Bool.not_true, Bool.false_or] at hmissing
    · have hmem := (get?_eq_some_iff t' ne_nil_of_vacant).1 hlink
      exact absurd (List.all_eq_true.1 hlinks _ hmem) Bool.false_ne_true
    · obtain rfl := hlocated l n htext
      rw [hdescribedPaths] at hpath
      have helsewhere := List.all_eq_true.1 hdescribed path hpath
      rw [hread] at helsewhere
      exact absurd helsewhere (by simp [Except.toOption])
  have hlisted : s.HasListedText (searchedTree "hlsl") t' := by
    intro l n htext m hm _
    obtain rfl := hlocated l n htext
    have hextension := List.all_eq_true.1 hmodules m hm
    have hname : searchedPlace.getLast? = some Output.fileName := by
      decide
    have hdot : Text.afterLast? '.' (Path.forward Output.fileName).toList = some "txt".toList := by
      decide
    refine Module.hasListed_of_hasExtension _ hname (by decide : _ = some 't') (by decide) hdot ?_
    rwa [Bool.not_eq_true'] at hextension
  obtain ⟨hload', hrun⟩ := hagain rfl hapart
  exact ⟨hcode, s, hload, hapart, hlisted, hload'.2 hlisted, (hrun hlisted).1⟩

/-- The first run, the tree it leaves and, for the files found in that tree, the size of the
second text. -/
theorem runs_searched :
    (load (searchedTree "txt") "/" ⟨"/ws", []⟩).toOption.map (fun s =>
      (s.output, s.project.utf8ByteSize)) = some (⟨"/ws/Intermediate/ProjectFiles"⟩, 631) ∧
    (run (searchedTree "txt") "/" ⟨"/ws", []⟩).code = 0 ∧
    (run (run (searchedTree "txt") "/" ⟨"/ws", []⟩).tree "/" ⟨"/ws", []⟩).code = 0 ∧
    (run (searchedTree "txt") "/" ⟨"/ws", []⟩).tree.locate (Path.join "/" "/ws") =
      .ok (["ws"], .directory) ∧
    (run (searchedTree "txt") "/" ⟨"/ws", []⟩).tree.exists?
      (Path.join "/ws" Workspace.Settings.fileName) = false ∧
    Workspace.descriptorFiles (run (searchedTree "txt") "/" ⟨"/ws", []⟩).tree
      (Workspace.atPath "/ws").root Workspace.Settings.default.ignored = ["/ws/t.module.toml"] ∧
    ((run (searchedTree "txt") "/" ⟨"/ws", []⟩).tree.walkFiles "/ws").map Path.forward =
      ["/ws/Intermediate/ProjectFiles/CMakeLists.txt", "/ws/t.module.toml"] ∧
    (Workspace.readFile (run (searchedTree "txt") "/" ⟨"/ws", []⟩).tree .standard
      (Workspace.atPath "/ws").context "/ws/t.module.toml").toOption.map (fun ms =>
        (ms.all fun m => m.isActive && m.directory == "/ws",
          (Graph.build Workspace.Settings.default.systemLibraries (Workspace.atPath "/ws").strict
            (ms.map (·.addFiles
              ["/ws/Intermediate/ProjectFiles/CMakeLists.txt", "/ws/t.module.toml"]))).toOption.map
                fun b => (CMake.Output.ofRoot "/ws" b.graph.settings,
                  (CMake.project b.graph (.atPath "/ws")).utf8ByteSize))) =
      some (true, some (⟨"/ws/Intermediate/ProjectFiles"⟩, 721)) := by
  decide +kernel

/-- The second run loads a workspace in which the text of the first one is a source. -/
theorem load_searched_again : ∃ s,
    load (run (searchedTree "txt") "/" ⟨"/ws", []⟩).tree "/" ⟨"/ws", []⟩ = .ok s ∧
      s.output = ⟨"/ws/Intermediate/ProjectFiles"⟩ ∧ s.project.utf8ByteSize = 721 := by
  obtain ⟨-, -, -, hroot, hsettings, hdescriptors, hwalk, hfound⟩ := runs_searched
  generalize (run (searchedTree "txt") "/" ⟨"/ws", []⟩).tree = t' at *
  have hfiles : Module.filesIn t' "/ws" =
      ["/ws/Intermediate/ProjectFiles/CMakeLists.txt", "/ws/t.module.toml"] := by
    rw [Module.filesIn, hwalk]
    exact List.mergeSort_of_pairwise (by decide +kernel)
  obtain ⟨ms, hread, hview⟩ := exists_ok_of_map_eq_some hfound
  obtain ⟨hmodules, hbuild⟩ := Prod.mk.inj hview
  obtain ⟨b, hb, hview'⟩ := exists_ok_of_map_eq_some hbuild
  obtain ⟨houtput, hsize⟩ := Prod.mk.inj hview'
  have hcomplete : ms.map (Workspace.complete t') = ms.map (·.addFiles
      ["/ws/Intermediate/ProjectFiles/CMakeLists.txt", "/ws/t.module.toml"]) := by
    refine List.map_congr_left fun m hm => ?_
    have hm' := List.all_eq_true.1 hmodules m hm
    simp only [Bool.and_eq_true, beq_iff_eq] at hm'
    rw [Workspace.complete, if_pos hm'.1, Module.collectSources, hm'.2, hfiles]
  have hsearch : Workspace.search t' (Workspace.atPath "/ws").root
      Workspace.Settings.default.ignored .standard (Workspace.atPath "/ws").context =
        .ok (Workspace.foundAlong .inOrder t' (Workspace.atPath "/ws").root
          Workspace.Settings.default.ignored .standard (Workspace.atPath "/ws").context) := by
    refine Workspace.searchAlong_eq_ok_iff.2 ⟨fun path hpath => ?_, rfl⟩
    rw [hdescriptors] at hpath
    exact List.mem_singleton.1 hpath ▸ ⟨ms, hread⟩
  have hworkspace : workspaceOf ⟨"/ws", []⟩ (Location.path ["ws"]) .default = .atPath "/ws" := by
    decide +kernel
  have hfound : (Workspace.foundAlong .inOrder t' (Workspace.atPath "/ws").root
      Workspace.Settings.default.ignored .standard (Workspace.atPath "/ws").context).modules =
        ms.map (Workspace.complete t') := by
    rw [Workspace.foundAlong, hdescriptors, List.flatMap_singleton, Workspace.declaredIn, hread]
    rfl
  have hgraph : ∃ events, (Workspace.atPath "/ws").graph t' .default =
      .ok { b with events := events } :=
    ⟨_, Workspace.graph_eq_ok_iff.2 ⟨_, hsearch, b, by rw [hfound, hcomplete]; exact hb, rfl⟩⟩
  obtain ⟨events, hgraph⟩ := hgraph
  have hload : load t' "/" ⟨"/ws", []⟩ =
      .ok ⟨"/ws", .atPath "/ws", { b with events := events }⟩ := by
    refine load_eq_ok_iff.2 ⟨["ws"], _, .default, hroot,
      Workspace.Settings.load_of_not_exists hsettings, ?_, rfl, hworkspace.symm⟩
    rw [hworkspace]
    exact hgraph
  exact ⟨_, hload, houtput, hsize⟩

/-- Runs that succeed one after the other may write different texts. -/
theorem exists_repeated_run_with_other_text :
    ∃ (t : FileTree) (cwd : String) (o : Options) (path text text' : String),
      (run t cwd o).code = 0 ∧ (run (run t cwd o).tree cwd o).code = 0 ∧
      (run t cwd o).tree.readText path = .ok text ∧
      (run (run t cwd o).tree cwd o).tree.readText path = .ok text' ∧ text ≠ text' := by
  obtain ⟨hview, hcode, hcode', -⟩ := runs_searched
  obtain ⟨s, hload, hs⟩ := exists_ok_of_map_eq_some hview
  obtain ⟨houtput, hsize⟩ := Prod.mk.inj hs
  obtain ⟨s', hload', houtput', hsize'⟩ := load_searched_again
  have htext := readText_of_run hload rfl hcode
  have htext' := readText_of_run hload' rfl hcode'
  rw [houtput] at htext
  rw [houtput'] at htext'
  refine ⟨_, _, _, _, _, _, hcode, hcode', htext, htext', fun hsame => ?_⟩
  rw [hsame] at hsize
  omega

end CommandLine

end BuildGraph
