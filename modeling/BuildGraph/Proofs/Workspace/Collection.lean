import BuildGraph.Proofs.Workspace.PlatformFolders
import Mathlib.Data.List.TakeWhile
set_option autoImplicit false

/-!
# What a module collects

A module finds the regular files below its directory, each by a path with slashes only. Which of
them become sources and which become headers, in what order they come in behind those that are
listed, and that nothing more comes in when the same tree is searched again, says
`collectSources_exact`. The folders of other platforms hold back sources and no headers.
-/

namespace BuildGraph

open FileTree

namespace Module

variable {t : FileTree} {m : Module} {p : Platform} {path ext : String}
  {values files folders : List String}

/-! ## Files that are found -/

/-- How a module finds a file: by which path, and through which folders from its directory on. -/
inductive Finds (t : FileTree) (m : Module) : String → List String → Prop
  /-- A regular file that stands below the directory. -/
  | below {l way : Location} {content : ByteArray} (hstart : t.start m.directory = .directory l)
      (hway : way ≠ []) (hget : t.get? (l ++ way) = some (.file content)) :
      Finds t m (m.listedPath way) (Path.foldersOf (relativePath way))
  /-- A regular file that stands where the directory should. -/
  | itself {l : Location} (hstart : t.start m.directory = .file l) :
      Finds t m (Path.forward m.directory) []

theorem mem_filesIn_iff_exists_finds :
    path ∈ filesIn t m.directory ↔ ∃ folders, m.Finds t path folders := by
  rw [mem_filesIn_iff, walkFiles]
  constructor
  · intro h
    obtain ⟨listed, hlisted, rfl⟩ := h
    split at hlisted
    · rename_i l hstart
      obtain ⟨way, hfile, rfl⟩ := List.mem_map.1 hlisted
      obtain ⟨hway, content, hget⟩ := mem_filesBelow_iff.1 hfile
      exact ⟨_, .below hstart hway hget⟩
    · rename_i l hstart
      rw [List.mem_singleton.1 hlisted]
      exact ⟨[], .itself hstart⟩
    · cases hlisted
  · intro h
    obtain ⟨folders, hfinds⟩ := h
    cases hfinds with
    | below hstart hway hget =>
      rw [hstart]
      exact ⟨_, List.mem_map_of_mem (mem_filesBelow_iff.2 ⟨hway, _, hget⟩), rfl⟩
    | itself hstart =>
      rw [hstart]
      exact ⟨_, List.mem_singleton_self _, rfl⟩

/-- The folder of another platform shows in the path. -/
theorem Finds.isForeign (h : m.Finds t path folders)
    (hforeign : ∃ folder ∈ folders, IsForeignFolder p folder) : isForeign p path = true := by
  cases h with
  | below hstart hway hget =>
    obtain ⟨above, hpath, -⟩ :=
      isForeign_listedPath p (Workspace.ne_empty_of_start hstart) (m := m) _
    rw [hpath, (isForeign_slash_iff p _).2 hforeign, Bool.or_true]
  | itself hstart =>
    obtain ⟨folder, hmem, -⟩ := hforeign
    cases hmem

/-- It shows there only so, unless it stands above the directory. -/
theorem Finds.isForeign_iff (h : m.Finds t path folders)
    (hdirectory : ¬ HasPlatformFolder m.directory) :
    Module.isForeign p path = true ↔ ∃ folder ∈ folders, IsForeignFolder p folder := by
  refine ⟨fun hforeign => ?_, h.isForeign⟩
  cases h with
  | below hstart hway hget =>
    obtain ⟨above, hpath, habove⟩ :=
      isForeign_listedPath p (Workspace.ne_empty_of_start hstart) (m := m) _
    rw [hpath, Bool.or_eq_true] at hforeign
    rcases hforeign with hforeign | hforeign
    · exact absurd (habove hforeign) hdirectory
    · exact (isForeign_slash_iff p _).1 hforeign
  | itself hstart => exact absurd (hasPlatformFolder_of_isForeign hforeign) hdirectory

/-! ## Files that are looked for -/

/-- What follows the last dot of a path. -/
def IsExtension (path ext : String) : Prop :=
  '.' ∉ ext.toList ∧ ∃ front : String, path = front ++ "." ++ ext

/-- The extensions that a module looks for: the usual ones, or else those that are declared,
without the dots in front of them. -/
def LooksFor (m : Module) (ext : String) : Prop :=
  if m.scansSources then ext ∈ ["cpp", "h", "inl", "ixx", "cppm"]
  else ∃ declared ∈ m.sourceExtensions, ∃ dots : List Char,
    (∀ c ∈ dots, c = '.') ∧ declared.toList = dots ++ ext.toList

/-- What a module takes for a source by its name. Without any extension to look for it takes
nothing. -/
def Wants (m : Module) (path : String) : Prop :=
  (m.scansSources = true ∨ m.sourceExtensions ≠ []) ∧
    ((∃ front : String, path = front ++ ".module.toml") ∨
      ∃ ext, IsExtension path ext ∧ m.LooksFor ext)

/-- The dots in front of an extension are all that is taken away. -/
theorem bareExtension_eq_iff {declared : String} (hext : '.' ∉ ext.toList) :
    bareExtension declared = ext.toList ↔
      ∃ dots : List Char, (∀ c ∈ dots, c = '.') ∧ declared.toList = dots ++ ext.toList := by
  constructor
  · intro h
    refine ⟨declared.toList.takeWhile (· == '.'), fun c hc => ?_, ?_⟩
    · have hdot := List.mem_takeWhile_imp hc
      exact beq_iff_eq.1 hdot
    · rw [← h, bareExtension, List.takeWhile_append_dropWhile]
  · intro h
    obtain ⟨dots, hdots, heq⟩ := h
    have hnone : ext.toList.dropWhile (· == '.') = ext.toList := by
      refine List.dropWhile_eq_self_iff.2 fun hpos hdot => hext ?_
      exact beq_iff_eq.1 hdot ▸ List.getElem_mem hpos
    rw [bareExtension, heq, List.dropWhile_append_of_pos (by simpa using hdots), hnone]

theorem hasExtension_iff {extensions : List String} : hasExtension extensions path = true ↔
    ∃ ext, IsExtension path ext ∧ ∃ e ∈ extensions, bareExtension e = ext.toList := by
  rw [hasExtension]
  constructor
  · intro h
    split at h
    · rename_i found hfound
      obtain ⟨e, he, hbare⟩ := List.any_eq_true.1 h
      obtain ⟨front, hfront, hdot⟩ := Text.afterLast?_eq_some_iff.1 hfound
      refine ⟨String.ofList found, ⟨?_, String.ofList front, ?_⟩, e, he, ?_⟩
      · rwa [String.toList_ofList]
      · exact String.toList_inj.1 (by simp [hfront])
      · rw [String.toList_ofList, beq_iff_eq.1 hbare]
    · cases h
  · intro h
    obtain ⟨ext, ⟨hdot, front, rfl⟩, e, he, hbare⟩ := h
    have hfound : Text.afterLast? '.' (front ++ "." ++ ext).toList = some ext.toList :=
      Text.afterLast?_eq_some_iff.2 ⟨front.toList, by simp, hdot⟩
    rw [hfound]
    exact List.any_eq_true.2 ⟨e, he, beq_iff_eq.2 hbare⟩

theorem looksFor_iff (hext : '.' ∉ ext.toList) :
    m.LooksFor ext ↔ ∃ e ∈ m.wantedExtensions, bareExtension e = ext.toList := by
  unfold LooksFor wantedExtensions
  split
  · have hbare : ∀ e ∈ usualExtensions, bareExtension e = e.toList := by
      decide
    constructor
    · intro h
      exact ⟨ext, h, hbare ext h⟩
    · intro h
      obtain ⟨e, he, heq⟩ := h
      rw [hbare e he] at heq
      exact String.toList_inj.1 heq ▸ he
  · simp only [bareExtension_eq_iff hext]

theorem wantedExtensions_ne_nil_iff :
    m.wantedExtensions ≠ [] ↔ m.scansSources = true ∨ m.sourceExtensions ≠ [] := by
  unfold wantedExtensions
  split <;> simp [usualExtensions, *]

/-- A source is what is wanted by its name and not in the folder of another platform. -/
theorem wantsSource_iff :
    m.wantsSource path = true ↔ m.Wants path ∧ isForeign m.platform path = false := by
  have hext : (∃ ext, IsExtension path ext ∧ m.LooksFor ext) ↔
      hasExtension m.wantedExtensions path = true := by
    rw [hasExtension_iff]
    exact exists_congr fun ext => and_congr_right fun h => looksFor_iff h.1
  rw [Wants, hext, ← wantedExtensions_ne_nil_iff, wantsSource, Bool.and_eq_true, Bool.and_eq_true,
    bne_iff_ne, Bool.or_eq_true, Text.endsWith_iff_exists_append, Bool.not_eq_true']
  rfl

theorem isExposedHeader_iff :
    isExposedHeader path = true ↔ ∃ front : String, path = front ++ ".PublicPch.h" :=
  Text.endsWith_iff_exists_append

/-- Of the two ends neither is the end of the other. -/
theorem isInternalHeader_iff :
    isInternalHeader path = true ↔ ∃ front : String, path = front ++ ".Pch.h" := by
  have hapart : Text.endsWith path internalHeaderSuffix = true → isExposedHeader path = false := by
    intro hinternal
    by_contra hexposed
    have hexposed := Bool.eq_true_of_not_eq_false hexposed
    rw [Text.endsWith, List.isSuffixOf_iff_suffix] at hinternal
    rw [isExposedHeader, Text.endsWith, List.isSuffixOf_iff_suffix] at hexposed
    have hends := List.suffix_of_suffix_length_le hinternal hexposed (by decide)
    revert hends
    decide
  rw [isInternalHeader, Bool.and_eq_true, Bool.not_eq_true', and_iff_right_of_imp hapart,
    Text.endsWith_iff_exists_append]
  rfl

/-! ## What comes in -/

/-- The files of a module: a source, a header for a platform, and a source with a backslash in
its name. -/
def annexWays : List Location :=
  [["Core.cpp"], ["_Windows", "Core.Pch.h"], ["_Windows\\Menu.cpp"]]

/-- What stands in the directory of the module and above it. -/
def annexNodes : List (Location × Node) :=
  [(["home"], .directory), (["home", "Core"], .directory),
    (["home", "Core", "Core.cpp"], .file .empty), (["home", "Core", "_Windows"], .directory),
    (["home", "Core", "_Windows", "Core.Pch.h"], .file .empty),
    (["home", "Core", "_Windows\\Menu.cpp"], .file .empty)]

/-- The file tree with the module. -/
def annex : FileTree where
  nodes := annexNodes
  ordered := by
    change annexNodes.Pairwise fun a b => a.1 < b.1
    decide +kernel

theorem grounded_annex : annex.Grounded := by
  decide +kernel

theorem holdsFiles_annex : annex.HoldsFiles "/home/Core" annexWays := by
  refine ⟨?_, ?_, ⟨["home", "Core"], ?_, ?_⟩, ?_⟩ <;> decide +kernel

theorem relativePaths_annexWays :
    relativePaths annexWays = ["Core.cpp", "_Windows/Core.Pch.h", "_Windows/Menu.cpp"] :=
  List.mergeSort_of_pairwise (by decide)

theorem collectSources_annex : (core.collectSources annex).sources = ["/home/Core/Core.cpp"] ∧
    (core.collectSources annex).precompiledHeaders = ⟨[], ["/home/Core/_Windows/Core.Pch.h"]⟩ := by
  rw [sources_collectSources (m := core) holdsFiles_annex rfl,
    precompiledHeaders_collectSources (m := core) holdsFiles_annex rfl, relativePaths_annexWays]
  decide +kernel

/-- A file that is found in the folder of another platform, however far below the directory. -/
def LiesInForeignFolder (t : FileTree) (m : Module) (path : String) : Prop :=
  ∃ folders, m.Finds t path folders ∧ ∃ folder ∈ folders, IsForeignFolder m.platform folder

/-- Whatever stands in the folder of another platform in the tree lies there, if no name on the
way from the directory holds a backslash. -/
theorem liesInForeignFolder_of_mem {l way : Location} {content : ByteArray} {folder : String}
    (ht : t.Grounded) (hstart : t.start m.directory = .directory l)
    (hget : t.get? (l ++ way) = some (.file content))
    (hbackslash : ∀ name ∈ way, '\\' ∉ name.toList) (hmem : folder ∈ way.dropLast)
    (hforeign : IsForeignFolder m.platform folder) :
    m.LiesInForeignFolder t (m.listedPath way) := by
  have hway : way ≠ [] := List.ne_nil_of_mem (List.dropLast_subset way hmem)
  have hplain : ∀ name ∈ way, IsPlainName name := fun name hname =>
    ht.isPlainName hget (List.mem_append_right l hname)
  refine ⟨_, .below hstart hway hget, folder, ?_, hforeign⟩
  rwa [foldersOf_relativePath hway hplain hbackslash]

/-- A path that is among the sources only after collecting. -/
def AddsSource (t : FileTree) (m : Module) (path : String) : Prop :=
  path ∉ m.sources ∧ path ∈ (m.collectSources t).sources

/-- A path that is among the precompiled headers of some scope only after collecting. -/
def AddsHeader (t : FileTree) (m : Module) (path : String) : Prop :=
  (path ∉ m.precompiledHeaders.exposed ∧
      path ∈ (m.collectSources t).precompiledHeaders.exposed) ∨
    (path ∉ m.precompiledHeaders.internal ∧
      path ∈ (m.collectSources t).precompiledHeaders.internal)

theorem mem_new_iff {pick : String → Bool} {v : String} :
    v ∉ values ∧ v ∈ addNew values (files.filter pick) ↔
      v ∉ values ∧ v ∈ files ∧ pick v = true := by
  rw [mem_addNew, List.mem_filter]
  exact and_congr_right fun hnew => or_iff_right hnew

theorem addsSource_iff : m.AddsSource t path ↔
    path ∉ m.sources ∧ path ∈ filesIn t m.directory ∧ m.wantsSource path = true :=
  mem_new_iff

theorem addsHeader_iff : m.AddsHeader t path ↔ path ∈ filesIn t m.directory ∧
    ((path ∉ m.precompiledHeaders.exposed ∧ ∃ front : String, path = front ++ ".PublicPch.h") ∨
      (path ∉ m.precompiledHeaders.internal ∧ ∃ front : String, path = front ++ ".Pch.h")) := by
  rw [AddsHeader, collectSources, addFiles, mem_new_iff, mem_new_iff, isExposedHeader_iff,
    isInternalHeader_iff, and_or_left]
  exact or_congr and_left_comm and_left_comm

/-- What comes in as a source comes in behind the others, each once. -/
theorem exists_sources_eq (t : FileTree) (m : Module) : ∃ new : List String,
    (m.collectSources t).sources = m.sources ++ new ∧ new.Nodup ∧
      ∀ v, v ∈ new ↔ m.AddsSource t v := by
  obtain ⟨new, heq, -, hnodup, hmem⟩ :=
    exists_addNew_eq m.sources ((filesIn t m.directory).filter m.wantsSource)
  refine ⟨new, heq, hnodup, fun v => ?_⟩
  rw [hmem, List.mem_filter, addsSource_iff]

/-- No source comes in from the folder of another platform. A header that is found there comes in
like any other: exactly if it is not listed in its scope. -/
theorem foreign_folders_keep_back_sources_only (t : FileTree) (m : Module) (path : String) :
    (m.AddsSource t path → ¬ m.LiesInForeignFolder t path) ∧
      (m.LiesInForeignFolder t path → (m.AddsHeader t path ↔
        (path ∉ m.precompiledHeaders.exposed ∧ ∃ front : String, path = front ++ ".PublicPch.h") ∨
          (path ∉ m.precompiledHeaders.internal ∧
            ∃ front : String, path = front ++ ".Pch.h"))) := by
  constructor
  · intro hadds hlies
    obtain ⟨folders, hfinds, hforeign⟩ := hlies
    obtain ⟨-, -, hwants⟩ := addsSource_iff.1 hadds
    have hapart := (wantsSource_iff.1 hwants).2
    rw [hfinds.isForeign hforeign] at hapart
    cases hapart
  · intro hlies
    obtain ⟨folders, hfinds, -⟩ := hlies
    rw [addsHeader_iff, and_iff_right (mem_filesIn_iff_exists_finds.2 ⟨folders, hfinds⟩)]

/-- A header in the folder for Windows comes in where the build is for Unix. -/
theorem exists_header_from_foreign_folder : ∃ (t : FileTree) (m : Module) (path : String),
    t.Grounded ∧ m.platform = .unix ∧ path = "/home/Core/_Windows/Core.Pch.h" ∧
      m.Finds t path ["_Windows"] ∧ m.LiesInForeignFolder t path ∧
      m.precompiledHeaders = .empty ∧ (m.collectSources t).precompiledHeaders = ⟨[], [path]⟩ ∧
      m.AddsHeader t path := by
  have hstart : annex.start core.directory = .directory ["home", "Core"] := by
    decide +kernel
  have hget :
      annex.get? (["home", "Core"] ++ ["_Windows", "Core.Pch.h"]) = some (.file .empty) := by
    decide +kernel
  have hpath : core.listedPath ["_Windows", "Core.Pch.h"] = "/home/Core/_Windows/Core.Pch.h" := by
    decide +kernel
  have hfolders : Path.foldersOf (relativePath ["_Windows", "Core.Pch.h"]) = ["_Windows"] := by
    decide +kernel
  have hfinds : core.Finds annex "/home/Core/_Windows/Core.Pch.h" ["_Windows"] :=
    hpath ▸ hfolders ▸ .below hstart (List.cons_ne_nil _ _) hget
  obtain ⟨-, hheaders⟩ := collectSources_annex
  refine ⟨annex, core, _, grounded_annex, rfl, rfl, hfinds,
    ⟨_, hfinds, "_Windows", List.mem_singleton_self _, by decide⟩, rfl, hheaders, .inr ⟨?_, ?_⟩⟩
  · exact List.not_mem_nil
  · rw [hheaders]
    exact List.mem_singleton_self _

end Module

end BuildGraph
