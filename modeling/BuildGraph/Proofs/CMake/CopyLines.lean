import BuildGraph.Proofs.CMake.Copies
import BuildGraph.Proofs.CMake.Reading
import Mathlib.Data.List.Sort
set_option autoImplicit false

/-!
# The lines that copy shared libraries

The only lines of a block with a command of their own are those that copy shared libraries beside
a program. They go by what can be reached from the program in the graph: module by module in
ascending order, and within a module in the order in which it exports its libraries. Each line is
determined by the program, the module and the path that is exported.
-/

namespace BuildGraph.CMake

open Relation

variable {g : Graph} {w : Workspace} {id : ModuleId} {m : Module} {path name file line : String}

/-! ## Names of files -/

/-- A slash of either kind. -/
def IsSlash (c : Char) : Prop :=
  c = '/' ∨ c = '\\'

/-- A name is what stands behind the last slash of a path, or all of a path without slashes. -/
def IsFileName (path file : String) : Prop :=
  (∀ c ∈ file.toList, ¬ IsSlash c) ∧
    (path = file ∨ ∃ directory slash, IsSlash slash ∧
      path = directory ++ String.singleton slash ++ file)

/-- Whether a character can stand in the name of a file. -/
abbrev inFileName (c : Char) : Bool :=
  c != '/' && c != '\\'

theorem inFileName_iff {c : Char} : inFileName c = true ↔ ¬ IsSlash c := by
  unfold inFileName IsSlash
  rw [Bool.and_eq_true, bne_iff_ne, bne_iff_ne, not_or]

theorem IsFileName.eq_fileName (h : IsFileName path file) : file = fileName path := by
  obtain ⟨hfile, hpath⟩ := h
  have hall : ∀ c ∈ file.toList.reverse, inFileName c = true := fun c hc =>
    inFileName_iff.2 (hfile c (List.mem_reverse.1 hc))
  have htaken : path.toList.reverse.takeWhile inFileName = file.toList.reverse := by
    rcases hpath with rfl | ⟨directory, slash, hslash, rfl⟩
    · exact List.takeWhile_eq_self_iff.2 hall
    · have hstop : ¬ inFileName slash = true := fun h => inFileName_iff.1 h hslash
      have hreverse : (directory ++ String.singleton slash ++ file).toList.reverse =
          file.toList.reverse ++ slash :: directory.toList.reverse := by
        simp
      rw [hreverse, List.takeWhile_append_of_pos hall, List.takeWhile_cons_of_neg hstop,
        List.append_nil]
  unfold fileName
  rw [htaken, List.reverse_reverse, String.ofList_toList]

theorem isFileName_fileName (path : String) : IsFileName path (fileName path) := by
  have htoList : (fileName path).toList.reverse = path.toList.reverse.takeWhile inFileName := by
    unfold fileName
    rw [String.toList_ofList, List.reverse_reverse]
  constructor
  · intro c hc
    rw [← List.mem_reverse, htoList] at hc
    exact inFileName_iff.1 (List.mem_takeWhile_imp hc)
  · have hsplit : (fileName path).toList.reverse ++ path.toList.reverse.dropWhile inFileName =
        path.toList.reverse := by
      rw [htoList, List.takeWhile_append_dropWhile]
    cases hrest : path.toList.reverse.dropWhile inFileName with
    | nil =>
      rw [hrest, List.append_nil, List.reverse_inj] at hsplit
      exact .inl (String.toList_inj.1 hsplit).symm
    | cons slash rest =>
      have hstop := List.head?_dropWhile_not inFileName path.toList.reverse
      rw [hrest] at hstop
      refine .inr ⟨String.ofList rest.reverse, slash, ?_, ?_⟩
      · exact not_not.1 fun h => Bool.eq_false_iff.1 hstop (inFileName_iff.2 h)
      · rw [hrest] at hsplit
        apply String.toList_inj.1
        rw [← List.reverse_inj, ← hsplit]
        simp

/-! ## Lines -/

/-- The lines of the block of a module that run a command of their own. -/
def commandLines (g : Graph) (w : Workspace) (id : ModuleId) : List String :=
  (Text.linesOf (block g w id)).filter (commandOf · == "add_custom_command")

theorem commandLines_eq_map (h : OneLine g w) (hm : g.modules[id]? = some m)
    (hactive : m.isActive = true) :
    commandLines g w id = (copyDirectives g id m).map Directive.text := by
  unfold commandLines
  rw [h.filter_linesOf_block hm hactive (by decide), ← commandsOf_moduleDirectives g w id m]
  rfl

/-- A module that is left out of the build has no lines. -/
theorem commandLines_eq_nil_of_excluded (hm : g.modules[id]? = some m)
    (hexcluded : m.excluded = true) : commandLines g w id = [] := by
  unfold commandLines
  rw [block_eq_empty_of_excluded hm hexcluded]
  decide

/-- The shared libraries that a module of a graph has exported, in order, each with the module. -/
def sharedLibraries (g : Graph) (k : ModuleId) : List (Module × String) :=
  match g.modules[k]? with
  | some x =>
    if x.exportsSharedLibraries = true then x.exportedSharedLibraries.map (x, ·) else []
  | none => []

/-- A line copies a shared library of a module beside a program: from its path, which is seen
from the directory of the module unless it is absolute, and under the name of its file. -/
def CopiesBeside (name : String) (library : Module × String) (line : String) : Prop :=
  ∃ source file,
    source = (if isRooted library.2 then library.2 else library.1.directory ++ "/" ++ library.2) ∧
    IsFileName library.2 file ∧ line = (Directive.copyLibrary name source file).text

/-- The line that copies a shared library of a module beside a program. -/
def copyLine (name : String) (library : Module × String) : String :=
  (Directive.copyLibrary name (qualify library.1.directory library.2) (fileName library.2)).text

theorem copiesBeside_iff {library : Module × String} :
    CopiesBeside name library line ↔ line = copyLine name library := by
  constructor
  · intro h
    obtain ⟨source, file, rfl, hfile, rfl⟩ := h
    rw [hfile.eq_fileName]
    rfl
  · intro h
    exact ⟨_, _, rfl, isFileName_fileName library.2, h⟩

theorem forall₂_copiesBeside_iff {ls : List (Module × String)} {lines : List String} :
    List.Forall₂ (CopiesBeside name) ls lines ↔ lines = ls.map (copyLine name) := by
  rw [eq_comm, ← List.forall₂_eq_eq_eq, List.forall₂_map_left_iff]
  exact ⟨.imp fun _ _ h => (copiesBeside_iff.1 h).symm, .imp fun _ _ h => copiesBeside_iff.2 h.symm⟩

/-- The copies beside a program, as lines. -/
theorem map_text_copyDirectives (hkind : m.kind = .executable) :
    (copyDirectives g id m).map Directive.text =
      ((g.closure id).flatMap (sharedLibraries g)).map (copyLine m.targetName) := by
  have hmodule : ∀ x : Module, (copiesFrom m.targetName x).map Directive.text =
      (if x.exportsSharedLibraries = true then x.exportedSharedLibraries.map (x, ·) else []).map
        (copyLine m.targetName) := by
    intro x
    unfold copiesFrom
    cases x.exportsSharedLibraries with
    | false => rfl
    | true => simp [copyLine, Function.comp_def]
  unfold copyDirectives
  rw [if_pos hkind, List.filterMap_eq_flatMap_toList, List.flatMap_assoc, List.map_flatMap,
    List.map_flatMap]
  congr 1
  funext k
  unfold sharedLibraries
  cases g.modules[k]? with
  | none => rfl
  | some x =>
    rw [Option.toList_some, List.flatMap_singleton]
    exact hmodule x

/-- In a built graph the lines of a program with a command of their own copy the shared libraries of
the modules that can be reached from it, other than itself: one line for each library, in ascending
order of the modules and in the order in which each of them exports its libraries. All other modules
have no such lines. -/
theorem copy_lines_exact {libraries : List String} {strict : Bool} {modules : List Module}
    {b : Built} (h : Graph.build libraries strict modules = .ok b) (hline : OneLine b.graph w)
    (hm : b.graph.modules[id]? = some m) :
    (m.isActive = true → m.kind = .executable → ∃ ids : List ModuleId, ids.Pairwise (· < ·) ∧
      (∀ k, k ∈ ids ↔ k ≠ id ∧ TransGen b.graph.Step id k) ∧
      List.Forall₂ (CopiesBeside m.targetName) (ids.flatMap (sharedLibraries b.graph))
        (commandLines b.graph w id)) ∧
    (¬ (m.isActive = true ∧ m.kind = .executable) → commandLines b.graph w id = []) := by
  constructor
  · intro hactive hkind
    refine ⟨b.graph.closure id, Graph.pairwise_closure b.graph id,
      fun k => Graph.mem_closure_iff_transGen (Graph.isGraphOf_of_build h), ?_⟩
    rw [forall₂_copiesBeside_iff, commandLines_eq_map hline hm hactive,
      map_text_copyDirectives hkind]
  · intro hother
    by_cases hactive : m.isActive = true
    · have hkind : m.kind ≠ .executable := fun hkind => hother ⟨hactive, hkind⟩
      rw [commandLines_eq_map hline hm hactive]
      unfold copyDirectives
      rw [if_neg hkind]
      rfl
    · exact commandLines_eq_nil_of_excluded hm (by simpa [Module.isActive] using hactive)

/-! ## A library on two ways -/

/-- A library with two shared libraries, one in its own directory. It needs the program. -/
def sharer : Module :=
  { Module.plain "Dxc" ["Viewer"] with
    directory := "/ws/Dxc", exportsSharedLibraries := true,
    exportedSharedLibraries := ["bin/dxc.dll", "C:\\sdk\\dxil.dll"] }

/-- A program with a shared library of its own, and two libraries that need the same third one. -/
def forked : List Module :=
  [.plainToolchain "Toolchain" [],
    { Module.plain "Viewer" ["Renderer", "Audio"] with
      kind := .executable, exportsSharedLibraries := true, exportedSharedLibraries := ["own.dll"] },
    .plain "Audio" ["Dxc"], .plain "Renderer" ["Dxc"], sharer]

/-- What can be reached from the program are the others, and the program itself. -/
theorem exists_build_forked :
    ∃ b, Graph.build [] false forked = .ok b ∧ TransGen b.graph.Step 1 1 ∧
      ∀ k, k ≠ 1 ∧ TransGen b.graph.Step 1 k ↔ k ∈ [2, 3, 4] := by
  have hview : (Graph.build [] false forked).toOption.map (fun b =>
      (List.range 5).map b.graph.dependencies) = some [[], [2, 3], [4], [4], [1]] := by
    decide +kernel
  obtain ⟨b, hb, heq⟩ := exists_ok_of_map_eq_some hview
  obtain ⟨-, hviewer, haudio, hrenderer, hdxc⟩ : b.graph.dependencies 0 = [] ∧
      b.graph.dependencies 1 = [2, 3] ∧ b.graph.dependencies 2 = [4] ∧
      b.graph.dependencies 3 = [4] ∧ b.graph.dependencies 4 = [1] := by
    simpa [List.range, List.range.loop] using heq
  have hstep : ∀ {u v : ModuleId}, b.graph.Step u v ↔ v ∈ b.graph.dependencies u :=
    Graph.mem_dependencies_iff.symm
  have htwo : b.graph.Step 1 2 := hstep.2 (hviewer ▸ by decide)
  have hthree : b.graph.Step 1 3 := hstep.2 (hviewer ▸ by decide)
  have hfour : b.graph.Step 2 4 := hstep.2 (haudio ▸ by decide)
  have hone : b.graph.Step 4 1 := hstep.2 (hdxc ▸ by decide)
  have hclosed : ∀ u v, u ∈ [1, 2, 3, 4] → b.graph.Step u v → v ∈ [1, 2, 3, 4] := by
    intro u v hu huv
    rw [hstep] at huv
    grind
  have honly : ∀ k, TransGen b.graph.Step 1 k → k ∈ [1, 2, 3, 4] := by
    intro k hway
    induction hway with
    | single hnext => exact hclosed _ _ (by decide) hnext
    | tail _ hnext ih => exact hclosed _ _ ih hnext
  refine ⟨b, hb, .head htwo (.head hfour (.single hone)), fun k => ⟨?_, ?_⟩⟩
  · rintro ⟨hne, hway⟩
    exact (List.mem_cons.1 (honly k hway)).resolve_left hne
  · intro hk
    simp only [List.mem_cons, List.not_mem_nil, or_false] at hk
    rcases hk with rfl | rfl | rfl
    · exact ⟨by decide, .single htwo⟩
    · exact ⟨by decide, .single hthree⟩
    · exact ⟨by decide, .head htwo (.single hfour)⟩

theorem copy_lines_exact_forked :
    ∃ b, Graph.build [] false forked = .ok b ∧ OneLine b.graph (.atPath "/ws") ∧
      TransGen b.graph.Step 1 1 ∧
      commandLines b.graph (.atPath "/ws") 1 =
        [(Directive.copyLibrary "Viewer" "/ws/Dxc/bin/dxc.dll" "dxc.dll").text,
          (Directive.copyLibrary "Viewer" "C:\\sdk\\dxil.dll" "dxil.dll").text] ∧
      commandLines b.graph (.atPath "/ws") 2 = [] := by
  obtain ⟨b, hb, hcircle, hreached⟩ := exists_build_forked
  have hmodules : b.graph.modules = forked := (Graph.isGraphOf_of_build hb).modules_eq
  have hline : OneLine b.graph (.atPath "/ws") := by
    refine ⟨by decide +kernel, ?_⟩
    rw [hmodules]
    decide +kernel
  have hget : ∀ k : ModuleId, b.graph.modules[k]? = forked[k]? := fun k => by rw [hmodules]
  obtain ⟨ids, hsorted, hmem, hlines⟩ := (copy_lines_exact hb hline (hget 1)).1 rfl rfl
  have hids : ids = [2, 3, 4] :=
    hsorted.eq_of_mem_iff (by decide) fun k => (hmem k).trans (hreached k)
  have hlibraries : ids.flatMap (sharedLibraries b.graph) =
      [(sharer, "bin/dxc.dll"), (sharer, "C:\\sdk\\dxil.dll")] := by
    rw [hids]
    unfold sharedLibraries
    rw [hmodules]
    rfl
  refine ⟨b, hb, hline, hcircle, ?_, (copy_lines_exact hb hline (hget 2)).2 (by decide)⟩
  rw [forall₂_copiesBeside_iff.1 hlines, hlibraries]
  decide +kernel

end BuildGraph.CMake
