import BuildGraph.Proofs.Workspace.Sources
import Mathlib.Data.String.Basic
set_option autoImplicit false

/-!
# Sources of a module that stands elsewhere

The same files below another directory give the same precompiled headers, each behind the new
directory. The sources move along exactly if the two directories do not differ in what is looked for
in whole paths: whether the way to the directory itself leads through the folder of another
platform, and, for an extension with a slash in it, where the last dot above a name without one
stands.
-/

namespace BuildGraph

open FileTree

/-! ## Texts in two parts -/

namespace Text

variable {mark : Char} {cs front back rest : List Char}

/-- Up to its first mark a text is part of what it is up to any other. -/
theorem prefix_of_append_cons_eq {after : List Char} (h : mark ∉ cs)
    (heq : cs ++ mark :: after = front ++ mark :: back) : cs ++ [mark] <+: front ++ [mark] := by
  have hfirst : cs ++ [mark] <+: front ++ mark :: back := ⟨after, by simp [← heq]⟩
  have hother : front ++ [mark] <+: front ++ mark :: back := ⟨back, by simp⟩
  obtain hle | hge := List.prefix_or_prefix_of_prefix hfirst hother
  · exact hle
  · obtain hsame | hinside := List.prefix_concat_iff.1 hge
    · exact hsame ▸ List.prefix_rfl
    · exact absurd (hinside.subset (List.mem_append_right front (List.mem_singleton_self mark))) h

/-- A text that starts and ends with a mark, and has no other, occurs before or behind a mark. -/
theorem occursIn_append_cons (h : mark ∉ cs) (front back : List Char) :
    occursIn (mark :: cs ++ [mark]) (front ++ mark :: back) =
      (occursIn (mark :: cs ++ [mark]) (front ++ [mark]) ||
        occursIn (mark :: cs ++ [mark]) (mark :: back)) := by
  rw [Bool.eq_iff_iff, Bool.or_eq_true, occursIn_iff, occursIn_iff, occursIn_iff]
  constructor
  · intro hoccurs
    obtain ⟨before, after, heq⟩ := hoccurs
    rw [List.append_assoc] at heq
    obtain ⟨inner, -, hback⟩ | ⟨inner, rfl, hback⟩ := List.append_eq_append_iff.1 heq
    · exact .inr ⟨inner, after, by rw [hback, ← List.append_assoc]⟩
    · -- the text starts before the mark: it ends there at the latest, unless it starts with it
      cases inner with
      | nil => exact .inr ⟨[], after, hback.symm⟩
      | cons a inner =>
        simp only [List.cons_append, List.append_assoc, List.nil_append] at hback
        obtain ⟨rfl, hrest⟩ := List.cons.inj hback
        obtain ⟨more, hmore⟩ := prefix_of_append_cons_eq h hrest
        refine .inl ⟨before, more, ?_⟩
        rw [List.append_assoc, List.cons_append, ← hmore]
        simp
  · intro hoccurs
    obtain ⟨before, after, heq⟩ | ⟨before, after, heq⟩ := hoccurs
    · exact ⟨before, after ++ back, by rw [← List.append_assoc, ← heq]; simp⟩
    · exact ⟨front ++ before, after, by rw [heq]; simp⟩

end Text

/-! ## Paths below a directory -/

namespace Path

variable {dir rel : String} {a b : String}

/-- The characters of a directory with a slash at the end. -/
def base (dir : String) : List Char :=
  if dir.toList.getLast? = some '/' then dir.toList else dir.toList ++ ['/']

/-- A relative path behind a directory. -/
def under (dir rel : String) : String :=
  String.ofList (base dir ++ rel.toList)

theorem toList_under (dir rel : String) : (under dir rel).toList = base dir ++ rel.toList :=
  String.toList_ofList

theorem under_injective (dir : String) : Function.Injective (under dir) := by
  intro a b h
  have hchars := congrArg String.toList h
  rw [toList_under, toList_under] at hchars
  exact String.toList_inj.1 (List.append_cancel_left hchars)

/-- Paths below one directory are in order exactly as what follows the directory is. -/
theorem under_le_under_iff (dir a b : String) : under dir a ≤ under dir b ↔ a ≤ b := by
  rw [String.le_iff_toList_le, String.le_iff_toList_le, toList_under, toList_under]
  constructor
  · intro h
    exact not_lt.1 fun hlt => not_lt.2 h (List.append_left_lt hlt)
  · intro h
    obtain hlt | heq := h.lt_or_eq
    · exact (List.append_left_lt hlt).le
    · rw [heq]

theorem exists_base_eq (dir : String) : ∃ front, base dir = front ++ ['/'] := by
  unfold base
  split
  · rename_i hslash
    exact List.getLast?_eq_some_iff.1 hslash
  · exact ⟨dir.toList, rfl⟩

/-- A relative path is joined to a directory behind its slash. -/
theorem join_eq_under (hdir : dir ≠ "") (hrel : isAbsolute rel = false) :
    join dir rel = under dir rel := by
  apply String.toList_inj.1
  rw [toList_under, base]
  have hne : dir.toList ≠ [] := fun hnil => hdir (String.toList_eq_nil_iff.1 hnil)
  by_cases hslash : dir.toList.getLast? = some '/'
  · rw [join, hrel, if_neg Bool.false_ne_true, if_pos (.inr hslash), if_pos hslash,
      String.toList_append]
  · rw [if_neg hslash]
    have hlast := List.getLast?_eq_some_getLast hne
    rw [toList_join hlast (fun heq => hslash (heq ▸ hlast)) hrel]
    simp

/-- In a directory without backslashes only what follows it is turned. -/
theorem forward_under (hdir : '\\' ∉ dir.toList) (rel : String) :
    forward (under dir rel) = under dir (forward rel) := by
  have hbase : '\\' ∉ base dir := by
    unfold base
    split
    · exact hdir
    · simpa using hdir
  have hsame : forward (String.ofList (base dir)) = String.ofList (base dir) :=
    forward_eq_self (by rwa [String.toList_ofList])
  have hchars := congrArg String.toList hsame
  simp only [forward, String.toList_ofList] at hchars
  simp only [forward, under, String.toList_ofList, List.map_append, hchars]

end Path

/-! ## Files below a directory -/

namespace FileTree

variable {t : FileTree} {directory : String} {way : Location} {ways : List Location}

/-- The path of a file from the directory below which it is found, with slashes only. -/
def relativePath (way : Location) : String :=
  Path.forward ("/".intercalate way)

/-- The paths of some files from the directory, in ascending order. -/
def relativePaths (ways : List Location) : List String :=
  (ways.map relativePath).mergeSort fun a b => decide (a ≤ b)

/-- A directory has an absolute path with slashes only, and the ways to the files below it are the
given ones, each of plain names. -/
structure HoldsFiles (t : FileTree) (directory : String) (ways : List Location) : Prop where
  isAbsolute : Path.isAbsolute directory = true
  backslash_not_mem : '\\' ∉ directory.toList
  found : ∃ l, t.start directory = .directory l ∧ t.filesBelow l = ways
  plain : ∀ way ∈ ways, ∀ name ∈ way, IsPlainName name

/-- Plain names one below the other are a relative path. -/
theorem isAbsolute_intercalate (hway : way ≠ []) (hplain : ∀ name ∈ way, IsPlainName name) :
    Path.isAbsolute ("/".intercalate way) = false := by
  obtain ⟨name, rest, rfl⟩ := List.exists_cons_of_ne_nil hway
  have hname := hplain name List.mem_cons_self
  have hchars : name.toList ≠ [] := fun hnil => hname.ne_empty (String.toList_eq_nil_iff.1 hnil)
  cases rest with
  | nil => rw [String.intercalate_singleton, hname.isAbsolute_eq]
  | cons next rest =>
    rw [String.intercalate_cons_of_ne_nil (List.cons_ne_nil _ _), ← hname.isAbsolute_eq,
      Path.isAbsolute, Path.isAbsolute, String.toList_append, String.toList_append,
      List.append_assoc, List.head?_append_of_ne_nil _ hchars]

namespace HoldsFiles

theorem ne_empty (h : t.HoldsFiles directory ways) : directory ≠ "" := by
  rintro rfl
  exact Bool.false_ne_true h.isAbsolute

/-- The files of a module are named by the directory and by their paths from it. -/
theorem filesIn_eq (h : t.HoldsFiles directory ways) :
    Module.filesIn t directory = (relativePaths ways).map (Path.under directory) := by
  obtain ⟨l, hstart, hways⟩ := h.found
  have hpath : ∀ way ∈ ways,
      Path.forward (pathBelow directory way) = Path.under directory (relativePath way) := by
    intro way hway
    have hne : way ≠ [] := by
      rw [← hways, mem_filesBelow_iff] at hway
      exact hway.1
    rw [pathBelow, Path.join_eq_under h.ne_empty (isAbsolute_intercalate hne (h.plain way hway)),
      Path.forward_under h.backslash_not_mem, relativePath]
  have hfiles : (t.walkFiles directory).map Path.forward =
      (ways.map relativePath).map (Path.under directory) := by
    simp only [walkFiles, hstart, hways, List.map_map]
    exact List.map_congr_left hpath
  rw [Module.filesIn, hfiles, relativePaths, List.map_mergeSort]
  intro a _ b _
  rw [decide_eq_decide, Path.under_le_under_iff]

end HoldsFiles

end FileTree

/-! ## What a module looks for below its directory -/

/-- A text that ends like another one behind a slash ends so by itself, if the end has no slash. -/
theorem Path.endsWith_under {ending : String} (h : '/' ∉ ending.toList) (dir rel : String) :
    Text.endsWith (under dir rel) ending = Text.endsWith rel ending := by
  obtain ⟨front, hfront⟩ := exists_base_eq dir
  rw [Bool.eq_iff_iff, Text.endsWith, Text.endsWith, List.isSuffixOf_iff_suffix,
    List.isSuffixOf_iff_suffix, toList_under, hfront, List.append_assoc, List.singleton_append]
  constructor
  · intro hends
    obtain hin | hover := List.suffix_or_suffix_of_suffix hends (List.suffix_append _ _)
    · exact (List.suffix_cons_iff.1 hin).resolve_left fun heq => h (heq ▸ List.mem_cons_self)
    · exact absurd (hover.subset List.mem_cons_self) h
  · intro hends
    exact hends.trans ((List.suffix_cons _ _).trans (List.suffix_append _ _))

/-- Every value of every scope, changed in one way. -/
def Scoped.map (f : String → String) (s : Scoped) : Scoped :=
  ⟨s.exposed.map f, s.internal.map f⟩

namespace Module

variable {t t' : FileTree} {m : Module} {directory file rel : String} {ways : List Location}

/-- Whether a directory lies in the folder of another platform. -/
def isForeignDirectory (p : Platform) (dir : String) : Bool :=
  isForeign p (Path.under dir "")

/-- The folder of a platform stands above a directory or below it. -/
theorem isForeign_under (p : Platform) (dir rel : String) :
    isForeign p (Path.under dir rel) = (isForeignDirectory p dir || isForeign p ("/" ++ rel)) := by
  obtain ⟨front, hfront⟩ := Path.exists_base_eq dir
  have hfolder : ∀ q, Text.occursIn (platformFolder q).toList (Path.under dir rel).toList =
      (Text.occursIn (platformFolder q).toList (Path.under dir "").toList ||
        Text.occursIn (platformFolder q).toList ("/" ++ rel).toList) := by
    intro q
    have hslash : '/' ∉ '_' :: q.folder.toList := by
      cases q <;> decide
    have hneedle : (platformFolder q).toList = '/' :: ('_' :: q.folder.toList) ++ ['/'] := by
      simp [platformFolder]
    have hdirectory : (Path.under dir "").toList = front ++ ['/'] := by
      rw [Path.toList_under, hfront, String.toList_empty, List.append_nil]
    have hpath : (Path.under dir rel).toList = front ++ '/' :: rel.toList := by
      rw [Path.toList_under, hfront, List.append_assoc, List.singleton_append]
    have hbelow : ("/" ++ rel).toList = '/' :: rel.toList := by
      simp
    rw [hneedle, hdirectory, hpath, hbelow, Text.occursIn_append_cons hslash]
  rw [Bool.eq_iff_iff]
  simp only [isForeignDirectory, isForeign, hfolder, Bool.or_eq_true, Bool.and_eq_true,
    List.any_eq_true, and_or_left, exists_or]

/-- New values come in alike when all values are renamed, each to one of its own. -/
theorem addNew_map {f : String → String} (hf : Function.Injective f) (values new : List String) :
    addNew (values.map f) (new.map f) = (addNew values new).map f := by
  induction new generalizing values with
  | nil => rfl
  | cons v new ih =>
    have hlisted : (values.map f).contains (f v) = values.contains v := by
      rw [Bool.eq_iff_iff, List.contains_iff_mem, List.contains_iff_mem,
        List.mem_map_of_injective hf]
    rw [List.map_cons, addNew, addNew, hlisted]
    split
    · exact ih values
    · rw [← ih, List.map_append, List.map_singleton]

/-- What is picked from the files below a directory is what their paths from it are picked for. -/
theorem addNew_filter_under (dir : String) (paths : List String) (p : String → Bool) :
    addNew [] ((paths.map (Path.under dir)).filter p) =
      (addNew [] (paths.filter fun rel => p (Path.under dir rel))).map (Path.under dir) := by
  rw [List.filter_map, ← addNew_map (Path.under_injective dir), List.map_nil]
  rfl

/-- Whether a file is a precompiled header shows in its path from the directory. -/
theorem isHeader_under (dir rel : String) :
    isExposedHeader (Path.under dir rel) = isExposedHeader rel ∧
      isInternalHeader (Path.under dir rel) = isInternalHeader rel := by
  have hexposed : isExposedHeader (Path.under dir rel) = isExposedHeader rel :=
    Path.endsWith_under (by decide) dir rel
  refine ⟨hexposed, ?_⟩
  rw [isInternalHeader, isInternalHeader, hexposed, Path.endsWith_under (by decide)]

theorem sources_collectSources (h : t.HoldsFiles m.directory ways) (hsources : m.sources = []) :
    (m.collectSources t).sources =
      (addNew [] ((relativePaths ways).filter fun rel =>
        m.wantsSource (Path.under m.directory rel))).map (Path.under m.directory) := by
  rw [collectSources, addFiles, h.filesIn_eq, hsources, addNew_filter_under]

theorem precompiledHeaders_collectSources (h : t.HoldsFiles m.directory ways)
    (hheaders : m.precompiledHeaders = .empty) :
    (m.collectSources t).precompiledHeaders =
      Scoped.map (Path.under m.directory)
        ⟨addNew [] ((relativePaths ways).filter isExposedHeader),
          addNew [] ((relativePaths ways).filter isInternalHeader)⟩ := by
  rw [collectSources, addFiles, h.filesIn_eq, hheaders, Scoped.empty, addNew_filter_under,
    addNew_filter_under]
  simp only [isHeader_under, Scoped.map]

/-- A library that is built on Unix and looks for its sources. -/
def core : Module :=
  { (default : Module) with
    name := "Core"
    platform := .unix
    directory := "/home/Core"
    file := "/home/Core/Core.module.toml"
    scansSources := true }

end Module

end BuildGraph
