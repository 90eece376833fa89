import BuildGraph.CMake.Output
import BuildGraph.Proofs.Graph.Built
import BuildGraph.Proofs.Workspace.Schedules
import BuildGraph.Proofs.Workspace.Sources
set_option autoImplicit false

/-!
# A workspace that is read again

After a single file was written, and some directories and links were made, a workspace has the
settings and the descriptors that it had, if what was missing still is and the file is none of
them. Its graph is then the same exactly if each active module has the file among its sources or
does not look for it.
-/

namespace BuildGraph.Workspace

open FileTree

variable {t t' : FileTree} {place : Location} {content : ByteArray} {root path name : String}
  {ignored : List String} {r : Registry} {c : Context} {w : Workspace} {s : Settings}

/-! ## Settings -/

theorem exists?_eq (hk : Keeps t t') (hmissing : t'.exists? path = true → t.exists? path = true) :
    t'.exists? path = t.exists? path :=
  Bool.eq_iff_iff.2 ⟨hmissing, fun h => exists?_of_keeps h hk⟩

theorem Settings.load_eq (h : GrowsBut place t t')
    (hmissing : t'.exists? (Path.join root fileName) = true →
      t.exists? (Path.join root fileName) = true)
    (helsewhere : ∀ n, t'.locate (Path.join root fileName) ≠ .ok (place, n)) :
    Settings.load t' root = Settings.load t root := by
  simp only [Settings.load, exists?_eq h.keeps hmissing]
  split
  · rename_i hexists
    rw [h.readText_eq hexists helsewhere]
  · rfl

/-! ## Descriptors -/

/-- A file is no descriptor unless its name ends like one. -/
theorem descriptorFiles_eq (h : GrowsBut place t t')
    (hmissing : t'.exists? root = true → t.exists? root = true) (hname : place.getLast? = some name)
    (hsuffix : Text.endsWith name Descriptor.fileSuffix = false) :
    descriptorFiles t' root ignored = descriptorFiles t root ignored := by
  have hplace : ∀ l rest, isDescriptor ignored rest = true → l ++ rest ≠ place := by
    rintro l rest hdescriptor rfl
    obtain ⟨⟨last, hlast, hends⟩, -⟩ := isDescriptor_iff.1 hdescriptor
    rw [List.getLast?_append, hlast, Option.some_or, Option.some.injEq] at hname
    rw [← hname, hends] at hsuffix
    cases hsuffix
  unfold descriptorFiles
  rw [start_of_keeps h.keeps hmissing]
  cases t.start root with
  | directory l => exact congrArg _ (h.filter_filesBelow_eq (hplace l))
  | file => rfl
  | nothing => rfl

/-- Wherever directories are ignored, the descriptors are among all there are. -/
theorem descriptorFiles_subset (t : FileTree) (root : String) (ignored : List String) :
    descriptorFiles t root ignored ⊆ descriptorFiles t root [] := by
  intro path hpath
  unfold descriptorFiles at hpath ⊢
  cases hstart : t.start root with
  | directory l =>
    rw [hstart] at hpath
    obtain ⟨way, hway, rfl⟩ := List.mem_map.1 hpath
    obtain ⟨hmem, hdescriptor⟩ := List.mem_filter.1 hway
    refine List.mem_map_of_mem (List.mem_filter.2 ⟨hmem, isDescriptor_iff.2 ?_⟩)
    exact ⟨(isDescriptor_iff.1 hdescriptor).1, fun _ _ => List.not_mem_nil⟩
  | file => rwa [hstart] at hpath
  | nothing => rwa [hstart] at hpath

theorem exists?_of_readText {text : String} (h : t.readText path = .ok text) :
    t.exists? path = true := by
  cases hlocate : t.locate path with
  | ok p => exact exists?_of_locate (l := p.1) (n := p.2) hlocate
  | error e =>
    rw [readText, readBytes, hlocate] at h
    cases h

/-- A descriptor that was read is read again. -/
theorem readFile_eq_of_isReadable
    (hread : t.exists? path = true → t'.readText path = t.readText path)
    (h : IsReadable t r c path) : readFile t' r c path = readFile t r c path := by
  obtain ⟨ms, hms⟩ := h
  cases htext : t.readText path with
  | error e =>
    rw [readFile, htext] at hms
    cases hms
  | ok text => rw [readFile, readFile, hread (exists?_of_readText htext)]

/-- Where all descriptors are read again, the same is found but for the sources. -/
theorem search_of_readFile_eq {found : Found}
    (hfiles : descriptorFiles t' root ignored = descriptorFiles t root ignored)
    (hread : ∀ path ∈ descriptorFiles t root ignored, IsReadable t r c path →
      readFile t' r c path = readFile t r c path)
    (h : search t root ignored r c = .ok found) :
    ∃ ms : List Module, found.modules = ms.map (complete t) ∧
      search t' root ignored r c = .ok ⟨ms.map (complete t'), found.events⟩ := by
  obtain ⟨hall, rfl⟩ := searchAlong_eq_ok_iff.1 h
  refine ⟨_, rfl, searchAlong_eq_ok_iff.2 ⟨fun path hpath => ?_, ?_⟩⟩
  · rw [hfiles] at hpath
    rw [IsReadable, hread path hpath (hall path hpath)]
    exact hall path hpath
  · have hdeclared : ∀ path ∈ descriptorFiles t root ignored,
        declaredIn t' r c path = declaredIn t r c path := fun path hpath => by
      rw [declaredIn, declaredIn, hread path hpath (hall path hpath)]
    have hmodules : (descriptorFiles t root ignored).flatMap (declaredIn t' r c) =
        (descriptorFiles t root ignored).flatMap (declaredIn t r c) :=
      List.flatMap_congr hdeclared
    have hevents : (Schedule.inOrder.order (descriptorFiles t root ignored)).map
          (loadedEvent t' r c) =
        (Schedule.inOrder.order (descriptorFiles t root ignored)).map (loadedEvent t r c) :=
      List.map_congr_left fun path hpath => by
        rw [loadedEvent, loadedEvent, hdeclared path hpath]
    simp only [foundAlong, hfiles, hmodules, hevents]

/-! ## The graph -/

/-- What one reading of a workspace and a later one have in common, when in between the text of a
project was written at a place. -/
structure IsReread (place : Location) (t t' : FileTree) (root : String) : Prop where
  grows : GrowsBut place t t'
  isFile : ∃ content, t'.get? place = some (.file content)
  named : place.getLast? = some CMake.Output.fileName
  missing : t'.exists? root = true → t.exists? root = true
  /-- No descriptor is read from the place. -/
  elsewhere : ∀ path ∈ descriptorFiles t root [], ∀ n, t'.locate path ≠ .ok (place, n)

/-- The same modules are declared, and only their sources may differ. -/
theorem IsReread.exists_search_eq (h : IsReread place t t' root) {found : Found}
    (hsearch : search t root ignored r c = .ok found) :
    ∃ ms : List Module, found.modules = ms.map (complete t) ∧
      search t' root ignored r c = .ok ⟨ms.map (complete t'), found.events⟩ := by
  have hfiles : descriptorFiles t' root ignored = descriptorFiles t root ignored :=
    descriptorFiles_eq h.grows h.missing h.named (by decide)
  refine search_of_readFile_eq hfiles
    (fun path hpath => readFile_eq_of_isReadable fun hexists => ?_) hsearch
  exact h.grows.readText_eq hexists (h.elsewhere path (descriptorFiles_subset t root ignored hpath))

/-- A module is complete as before exactly if it has the text among its sources, should it look
for it. -/
theorem IsReread.complete_eq_iff (h : IsReread place t t' root) {m : Module}
    (hmissing : m.isActive = true → t'.exists? m.directory = true → t.exists? m.directory = true) :
    complete t' m = complete t m ↔
      ((complete t m).isActive = true → (complete t m).HasListed t place) := by
  obtain ⟨content, hplace⟩ := h.isFile
  unfold complete
  cases hactive : m.isActive with
  | true =>
    have hcollected : (m.collectSources t).isActive = true := hactive
    have hend : (Path.forward CMake.Output.fileName).toList.getLast? = some 't' := by
      decide
    simp only [if_true, hcollected, true_implies]
    exact Module.collectSources_eq_iff h.grows hplace (hmissing hactive) h.named hend (by decide)
  | false =>
    simp only [Bool.false_eq_true, if_false, hactive, false_implies]

theorem graph_eq_ok_iff {b : Built} : w.graph t s = .ok b ↔
    ∃ found, search t w.root s.ignored .standard w.context = .ok found ∧
      ∃ b₀, Graph.build s.systemLibraries w.strict found.modules = .ok b₀ ∧
        b = { b₀ with events := found.events ++ b₀.events } :=
  graphAlong_eq_ok_iff

/-- The modules of a graph are those that were found. -/
theorem modules_eq_of_graph {b : Built} {found : Found}
    (hsearch : search t w.root s.ignored .standard w.context = .ok found)
    (h : w.graph t s = .ok b) : b.graph.modules = found.modules := by
  obtain ⟨found', hsearch', b₀, hbuild, rfl⟩ := graph_eq_ok_iff.1 h
  obtain rfl := Except.ok.inj (hsearch.symm.trans hsearch')
  exact (Graph.isGraphOf_of_build hbuild).modules_eq

/-- A workspace that is read again has the same graph exactly if each active module has the text
among its sources, should it look for it. -/
theorem IsReread.graph_eq_iff {b : Built} (h : IsReread place t t' w.root)
    (hmissing : ∀ m ∈ b.graph.modules, m.isActive = true →
      t'.exists? m.directory = true → t.exists? m.directory = true)
    (hgraph : w.graph t s = .ok b) :
    w.graph t' s = .ok b ↔ ∀ m ∈ b.graph.modules, m.isActive = true → m.HasListed t place := by
  obtain ⟨found, hsearch, b₀, hbuild, hb⟩ := graph_eq_ok_iff.1 hgraph
  obtain ⟨ms, hfound, hsearch'⟩ := h.exists_search_eq hsearch
  have hmodules : b.graph.modules = ms.map (complete t) :=
    (modules_eq_of_graph hsearch hgraph).trans hfound
  have hcomplete : ∀ m ∈ ms, (complete t' m = complete t m ↔
      ((complete t m).isActive = true → (complete t m).HasListed t place)) := by
    intro m hm
    refine h.complete_eq_iff fun hactive hexists => ?_
    have hmem : complete t m ∈ b.graph.modules := hmodules ▸ List.mem_map_of_mem hm
    have hcollected : complete t m = m.collectSources t := if_pos hactive
    rw [hcollected] at hmem
    exact hmissing (m.collectSources t) hmem hactive hexists
  have hsame : ms.map (complete t') = ms.map (complete t) ↔
      ∀ m ∈ b.graph.modules, m.isActive = true → m.HasListed t place := by
    rw [List.map_inj_left, hmodules, List.forall_mem_map]
    exact forall₂_congr hcomplete
  rw [← hsame]
  constructor
  · intro hagain
    exact (modules_eq_of_graph hsearch' hagain).symm.trans hmodules
  · intro heq
    refine graph_eq_ok_iff.2 ⟨_, hsearch', b₀, ?_, hb⟩
    rw [heq, ← hfound, hbuild]

end BuildGraph.Workspace
