import BuildGraph.Proofs.CMake.Blocks
import BuildGraph.Proofs.Text.Lines
import BuildGraph.Proofs.Workspace.Collection
set_option autoImplicit false

/-!
# Lists of sources

The sources of a module are compared as they are spelt when new ones come in behind them, while
the line that declares the target names them as they are seen from the directory. A source that
is declared by its path from the directory and found there as well is spelt in two ways and named
twice.
-/

namespace BuildGraph.CMake

open FileTree

variable {t : FileTree} {m : Module} {w : Workspace} {d : Directive} {dir path text : String}
  {paths folders : List String}

/-! ## Lists as they are printed -/

/-- The list of sources in the line of a directive, as it is printed. -/
def Directive.sourceText? : Directive → Option String
  | .library _ _ sources => some (terminated sources)
  | .executable _ _ sources => some (terminated sources)
  | .fileTarget _ sources => some (terminated sources)
  | _ => none

/-- The paths of a list: what the semicolons end. -/
def pathsIn (text : String) : List String :=
  (Path.pieces ';' text.toList).dropLast.map String.ofList

/-- A path that stands in a list as it is. -/
def IsListable (path : String) : Prop :=
  ';' ∉ path.toList ∧ '\\' ∉ path.toList

instance (path : String) : Decidable (IsListable path) := inferInstanceAs (Decidable (_ ∧ _))

/-- The list stands at the end of the line. -/
theorem Directive.exists_text_eq_of_sourceText? (h : d.sourceText? = some text) :
    ∃ front : String, d.text = front ++ text ++ ")" := by
  have hargument : ∃ front : String, d.argumentText = front ++ text := by
    cases d with
    | library name shared sources =>
      obtain rfl := Option.some.inj h
      exact ⟨_, rfl⟩
    | executable name windowed sources =>
      obtain rfl := Option.some.inj h
      by_cases hsources : sources = []
      · rw [hsources]
        exact ⟨_, String.append_empty.symm⟩
      · refine ⟨" ".intercalate ([name] ++ if windowed then ["WIN32"] else []) ++ " ", ?_⟩
        change " ".intercalate ([name] ++ (if windowed then ["WIN32"] else []) ++
          (if sources = [] then [] else [terminated sources])) = _
        rw [if_neg hsources, String.intercalate_append_of_ne_nil
          (List.append_ne_nil_of_left_ne_nil (List.cons_ne_nil _ _) _) (List.cons_ne_nil _ _),
          String.intercalate_singleton]
    | fileTarget name sources =>
      obtain rfl := Option.some.inj h
      exact ⟨_, rfl⟩
    | _ => cases h
  obtain ⟨front, hfront⟩ := hargument
  refine ⟨d.command ++ "(" ++ front, ?_⟩
  rw [Directive.text, hfront, ← String.append_assoc]

/-- Paths without semicolons are read back from their list. -/
theorem pathsIn_terminated (h : ∀ path ∈ paths, ';' ∉ path.toList) :
    pathsIn (terminated paths) = paths := by
  induction paths with
  | nil => rfl
  | cons path rest ih =>
    obtain ⟨hpath, hrest⟩ := List.forall_mem_cons.1 h
    have htext : (terminated (path :: rest)).toList =
        path.toList ++ ';' :: (terminated rest).toList := by
      have hcons : terminated (path :: rest) = path ++ ";" ++ terminated rest := String.join_cons
      rw [hcons]
      simp
    rw [pathsIn, htext, Text.pieces_append_mark hpath,
      List.dropLast_cons_of_ne_nil (Path.pieces_ne_nil ';' _), List.map_cons, String.ofList_toList]
    exact congrArg (path :: ·) (ih hrest)

/-- Where a declaration has a list of sources, it is that of the module. -/
theorem sourceText?_of_mem (h : d ∈ declarationDirectives m w) (htext : d.sourceText? = some text) :
    text = terminated (sourcePaths m) ∧ m.kind ≠ .interface ∧ m.kind ≠ .native := by
  have hlist : text = terminated (sourcePaths m) := by
    cases isDeclaration_of_mem h with
    | library | executable | fileTarget => exact (Option.some.inj htext).symm
    | interfaceLibrary | subdirectory | companion => cases htext
  have hkind : d ∈ kindDirectives m w := by
    rcases List.mem_append.1 h with hkind | hcompanion
    · exact hkind
    · split at hcompanion
      · obtain rfl := List.mem_singleton.1 hcompanion
        cases htext
      · cases hcompanion
  refine ⟨hlist, fun hinterface => ?_, fun hnative => ?_⟩
  · simp only [kindDirectives, hinterface, List.mem_singleton] at hkind
    subst hkind
    cases htext
  · simp only [kindDirectives, hnative, List.mem_map] at hkind
    obtain ⟨_, -, rfl⟩ := hkind
    cases htext

/-- A module that is no interface and no included project declares its sources if it has any. -/
theorem exists_sourceText?_eq (w : Workspace) (hinterface : m.kind ≠ .interface)
    (hnative : m.kind ≠ .native) (hsources : sourcePaths m ≠ []) :
    ∃ d ∈ declarationDirectives m w, d.sourceText? = some (terminated (sourcePaths m)) := by
  have hkind : ∃ d ∈ kindDirectives m w, d.sourceText? = some (terminated (sourcePaths m)) := by
    unfold kindDirectives
    cases hkind : m.kind with
    | interface => exact absurd hkind hinterface
    | native => exact absurd hkind hnative
    | staticLibrary | sharedLibrary =>
      simp only [if_neg hsources]
      exact ⟨_, List.mem_singleton_self _, rfl⟩
    | executable | customRules => exact ⟨_, List.mem_singleton_self _, rfl⟩
  obtain ⟨d, hd, htext⟩ := hkind
  exact ⟨d, List.mem_append_left _ hd, htext⟩

/-! ## Paths seen from a directory -/

theorem isRooted_iff : isRooted path = true ↔ (∃ rest, path.toList = '/' :: rest) ∨
    (∃ rest, path.toList = '\\' :: rest) ∨
      ∃ c rest, path.toList = c :: ':' :: rest ∧ c.isAlpha = true := by
  unfold isRooted
  constructor
  · intro h
    split at h
    · rename_i rest hpath
      exact .inl ⟨rest, hpath⟩
    · rename_i rest hpath
      exact .inr (.inl ⟨rest, hpath⟩)
    · rename_i c rest hslash hbackslash hpath
      exact .inr (.inr ⟨c, rest, hpath, h⟩)
    · cases h
  · intro h
    obtain ⟨rest, hpath⟩ | ⟨rest, hpath⟩ | ⟨c, rest, hpath, hc⟩ := h
    · rw [hpath]
      rfl
    · rw [hpath]
      rfl
    · rw [hpath]
      split <;> simp_all

/-- What stands at the front of a path decides. -/
theorem isRooted_of_isPrefix (h : isRooted dir = true) (hfront : dir.toList <+: path.toList) :
    isRooted path = true := by
  obtain ⟨more, hpath⟩ := hfront
  obtain ⟨rest, hdir⟩ | ⟨rest, hdir⟩ | ⟨c, rest, hdir, hc⟩ := isRooted_iff.1 h
  · exact isRooted_iff.2 (.inl ⟨rest ++ more, by rw [← hpath, hdir, List.cons_append]⟩)
  · exact isRooted_iff.2 (.inr (.inl ⟨rest ++ more, by rw [← hpath, hdir, List.cons_append]⟩))
  · exact isRooted_iff.2
      (.inr (.inr ⟨c, rest ++ more, by rw [← hpath, hdir, List.cons_append, List.cons_append], hc⟩))

theorem isRooted_forward (h : isRooted path = true) : isRooted (Path.forward path) = true := by
  simp only [isRooted_iff, Path.forward, String.toList_ofList]
  obtain ⟨rest, hpath⟩ | ⟨rest, hpath⟩ | ⟨c, rest, hpath, hc⟩ := isRooted_iff.1 h
  · exact .inl ⟨rest.map Path.forwardChar, by rw [hpath]; rfl⟩
  · exact .inl ⟨rest.map Path.forwardChar, by rw [hpath]; rfl⟩
  · have hletter : Path.forwardChar c = c := by
      refine if_neg ?_
      rintro rfl
      cases hc
    exact .inr (.inr ⟨c, rest.map Path.forwardChar, by rw [hpath, List.map_cons, hletter]; rfl, hc⟩)

/-- Below a directory that is not rooted nothing is. -/
theorem isRooted_append_eq_false (hdir : isRooted dir = false) (hne : dir ≠ "") (path : String) :
    isRooted (dir ++ "/" ++ path) = false := by
  refine Bool.eq_false_of_not_eq_true fun h => Bool.false_ne_true (hdir.symm.trans ?_)
  have hchars : (dir ++ "/" ++ path).toList = dir.toList ++ '/' :: path.toList := by
    simp
  obtain ⟨a, cs, hcs⟩ :=
    List.exists_cons_of_ne_nil fun hnil => hne (String.toList_eq_nil_iff.1 hnil)
  rw [isRooted_iff, hchars, hcs] at h
  rw [isRooted_iff, hcs]
  obtain ⟨rest, heq⟩ | ⟨rest, heq⟩ | ⟨c, rest, heq, hc⟩ := h
  · exact .inl ⟨cs, by rw [(List.cons.inj heq).1]⟩
  · exact .inr (.inl ⟨cs, by rw [(List.cons.inj heq).1]⟩)
  · obtain ⟨rfl, hrest⟩ := List.cons.inj heq
    cases cs with
    | nil => exact absurd (List.cons.inj hrest).1 (by decide)
    | cons b bs =>
      obtain ⟨rfl, -⟩ := List.cons.inj hrest
      exact .inr (.inr ⟨a, bs, rfl, hc⟩)

/-- From a directory that is not rooted two paths are never seen as one. -/
theorem qualify_injective (hdir : isRooted dir = false) (hne : dir ≠ "") :
    Function.Injective (qualify dir) := by
  have hapart : ∀ {a b : String}, isRooted a = true → a ≠ dir ++ "/" ++ b := by
    intro a b ha heq
    rw [heq, isRooted_append_eq_false hdir hne] at ha
    cases ha
  intro a b heq
  unfold qualify at heq
  split at heq <;> split at heq
  · exact heq
  · rename_i ha _
    exact absurd heq (hapart ha)
  · rename_i hb
    exact absurd heq.symm (hapart hb)
  · have hchars := congrArg String.toList heq
    simp only [String.toList_append] at hchars
    exact String.toList_inj.1 (List.append_cancel_left hchars)

/-- Whatever a module finds in a rooted directory has a rooted path. -/
theorem isRooted_of_finds (h : m.Finds t path folders) (hdir : isRooted m.directory = true) :
    isRooted path = true := by
  cases h with
  | @below l way content hstart hway hget =>
    refine isRooted_forward ?_
    unfold pathBelow Path.join
    split
    · rename_i habsolute
      obtain ⟨rest, hrest⟩ := List.head?_eq_some_iff.1 (beq_iff_eq.1 habsolute)
      exact isRooted_iff.2 (.inl ⟨rest, hrest⟩)
    · split
      · exact isRooted_of_isPrefix hdir ⟨_, String.toList_append.symm⟩
      · exact isRooted_of_isPrefix hdir ⟨'/' :: ("/".intercalate way).toList, by simp⟩
  | itself => exact isRooted_forward hdir

/-- It has no backslash in it either. -/
theorem backslash_not_mem_of_finds (h : m.Finds t path folders) : '\\' ∉ path.toList := by
  have hforward : ∀ s : String, '\\' ∉ (Path.forward s).toList := by
    intro s hmem
    rw [Path.forward, String.toList_ofList] at hmem
    obtain ⟨c, -, hc⟩ := List.mem_map.1 hmem
    exact Path.forwardChar_ne c hc
  cases h with
  | below => exact hforward _
  | itself => exact hforward _

theorem finds_of_addsSource (h : m.AddsSource t path) : ∃ folders, m.Finds t path folders :=
  Module.mem_filesIn_iff_exists_finds.1 (Module.addsSource_iff.1 h).2.1

theorem directory_ne_empty_of_finds (h : m.Finds t path folders) : m.directory ≠ "" := by
  intro hempty
  cases h with
  | below hstart => exact Workspace.ne_empty_of_start hstart hempty
  | itself hstart =>
    rw [hempty] at hstart
    cases hstart

/-! ## Sources after collecting -/

theorem qualify_of_isRooted (h : isRooted path = true) : qualify dir path = path :=
  if_pos h

theorem qualify_of_not_isRooted (h : isRooted path = false) :
    qualify dir path = dir ++ "/" ++ path :=
  if_neg (h ▸ Bool.false_ne_true)

theorem mem_or_of_mem_qualify {c : Char} (h : c ∈ (qualify dir path).toList) :
    c ∈ dir.toList ∨ c = '/' ∨ c ∈ path.toList := by
  unfold qualify at h
  split at h
  · exact .inr (.inr h)
  · simpa [or_assoc] using h

/-- Without backslashes the sources of a module are named as they are seen from its directory. -/
theorem sourcePaths_collectSources (hdirectory : '\\' ∉ m.directory.toList)
    (hsources : ∀ s ∈ m.sources, '\\' ∉ s.toList) {new : List String}
    (heq : (m.collectSources t).sources = m.sources ++ new)
    (hnew : ∀ v, v ∈ new ↔ m.AddsSource t v) :
    sourcePaths (m.collectSources t) = (m.sources ++ new).map (qualify m.directory) := by
  have hplain : ∀ s ∈ m.sources ++ new, '\\' ∉ s.toList := by
    intro s hs
    rcases List.mem_append.1 hs with hs | hs
    · exact hsources s hs
    · obtain ⟨folders, hfinds⟩ := finds_of_addsSource ((hnew s).1 hs)
      exact backslash_not_mem_of_finds hfinds
  have hdir : (m.collectSources t).directory = m.directory := rfl
  rw [sourcePaths, heq, hdir]
  refine List.map_congr_left fun s hs => Path.forward_eq_self fun hmem => ?_
  rcases mem_or_of_mem_qualify hmem with hmem | hmem | hmem
  · exact hdirectory hmem
  · cases hmem
  · exact hplain s hs hmem

/-- Sources that are distinct as they are seen from the directory stay so unless one of them is
declared by its path from a rooted directory and comes in again by the path under which it is
found. -/
theorem nodup_map_qualify_iff {new : List String}
    (hdistinct : (m.sources.map (qualify m.directory)).Nodup) (hnodup : new.Nodup)
    (hnew : ∀ v, v ∈ new ↔ m.AddsSource t v) :
    ((m.sources ++ new).map (qualify m.directory)).Nodup ↔
      (isRooted m.directory = true → ∀ s ∈ m.sources, isRooted s = false →
        ¬ m.AddsSource t (m.directory ++ "/" ++ s)) := by
  have hlisted : ∀ s ∈ m.sources, s ∉ new := fun s hs hmem => ((hnew s).1 hmem).1 hs
  cases hdir : isRooted m.directory with
  | true =>
    have hsame : new.map (qualify m.directory) = new := by
      refine (List.map_congr_left fun v hv => ?_).trans (List.map_id new)
      obtain ⟨folders, hfinds⟩ := finds_of_addsSource ((hnew v).1 hv)
      exact qualify_of_isRooted (isRooted_of_finds hfinds hdir)
    rw [List.map_append, hsame, List.nodup_append', and_iff_right hdistinct, and_iff_right hnodup,
      forall_prop_of_true rfl, List.disjoint_left, List.forall_mem_map]
    refine forall₂_congr fun s hs => ?_
    cases hrooted : isRooted s with
    | true => simp [qualify_of_isRooted hrooted, hlisted s hs]
    | false => simp [qualify_of_not_isRooted hrooted, hnew]
  | false =>
    refine iff_of_true ?_ nofun
    by_cases hempty : m.directory = ""
    · have hnone : new = [] := by
        refine List.eq_nil_iff_forall_not_mem.2 fun v hv => ?_
        obtain ⟨folders, hfinds⟩ := finds_of_addsSource ((hnew v).1 hv)
        exact directory_ne_empty_of_finds hfinds hempty
      rwa [hnone, List.append_nil]
    · rw [List.nodup_map_iff (qualify_injective hdir hempty)]
      exact List.nodup_append'.2
        ⟨hdistinct.of_map _, hnodup, List.disjoint_left.2 fun s => hlisted s⟩

/-- A list of sources that is printed after collecting names no path twice, unless the module
stands in a rooted directory and one of its sources, declared by its path from there, is found
there as well and comes in by its whole path. Then its declaration names that source twice, if it
has a list of sources at all. -/
theorem sources_printed_once_iff (w : Workspace)
    (hdistinct : (m.sources.map (qualify m.directory)).Nodup) (hdirectory : IsListable m.directory)
    (hsources : ∀ s ∈ m.sources, IsListable s)
    (hfound : ∀ path, m.AddsSource t path → ';' ∉ path.toList) :
    (∀ d ∈ declarationDirectives (m.collectSources t) w, ∀ text, d.sourceText? = some text →
        (∃ front : String, d.text = front ++ text ++ ")") ∧ (pathsIn text).Nodup) ↔
      (m.kind ≠ .interface → m.kind ≠ .native → isRooted m.directory = true →
        ∀ s ∈ m.sources, isRooted s = false → ¬ m.AddsSource t (m.directory ++ "/" ++ s)) := by
  obtain ⟨new, heq, hnodup, hnew⟩ := m.exists_sources_eq t
  have hpaths : sourcePaths (m.collectSources t) = (m.sources ++ new).map (qualify m.directory) :=
    sourcePaths_collectSources hdirectory.2 (fun s hs => (hsources s hs).2) heq hnew
  have hread : pathsIn (terminated (sourcePaths (m.collectSources t))) =
      (m.sources ++ new).map (qualify m.directory) := by
    rw [hpaths]
    refine pathsIn_terminated (List.forall_mem_map.2 fun s hs hmem => ?_)
    rcases mem_or_of_mem_qualify hmem with hmem | hmem | hmem
    · exact hdirectory.1 hmem
    · cases hmem
    · rcases List.mem_append.1 hs with hs | hs
      · exact (hsources s hs).1 hmem
      · exact hfound s ((hnew s).1 hs) hmem
  have hexact := nodup_map_qualify_iff hdistinct hnodup hnew
  constructor
  · intro honce hinterface hnative hrooted s hs hrelative
    have hlisted : sourcePaths (m.collectSources t) ≠ [] := by
      rw [hpaths]
      exact List.ne_nil_of_mem (List.mem_map_of_mem (List.mem_append_left new hs))
    obtain ⟨d, hd, htext⟩ :=
      exists_sourceText?_eq (m := m.collectSources t) w hinterface hnative hlisted
    obtain ⟨-, hprinted⟩ := honce d hd _ htext
    rw [hread] at hprinted
    exact hexact.1 hprinted hrooted s hs hrelative
  · intro hapart d hd text htext
    refine ⟨d.exists_text_eq_of_sourceText? htext, ?_⟩
    obtain ⟨rfl, hinterface, hnative⟩ := sourceText?_of_mem hd htext
    rw [hread]
    exact hexact.2 (hapart hinterface hnative)

/-! ## One module -/

/-- A library that declares some sources and looks for more. -/
def declaring (sources : List String) : Module :=
  { Module.core with sources }

theorem filter_filesIn_annex :
    (Module.filesIn Module.annex "/home/Core").filter Module.core.wantsSource =
      ["/home/Core/Core.cpp"] := by
  rw [Module.holdsFiles_annex.filesIn_eq, Module.relativePaths_annexWays]
  decide +kernel

theorem sources_declaring (sources : List String) :
    ((declaring sources).collectSources Module.annex).sources =
      Module.addNew sources ["/home/Core/Core.cpp"] :=
  congrArg (Module.addNew sources) filter_filesIn_annex

theorem eq_of_addsSource_declaring {sources : List String}
    (h : (declaring sources).AddsSource Module.annex path) : path = "/home/Core/Core.cpp" := by
  obtain ⟨-, hpicked⟩ := Module.addsSource_iff.1 h
  have hmem : path ∈ (Module.filesIn Module.annex "/home/Core").filter Module.core.wantsSource :=
    List.mem_filter.2 hpicked
  rwa [filter_filesIn_annex, List.mem_singleton] at hmem

/-- A source that is not there to be found, and one that is declared by its whole path, are named
once. -/
theorem sources_printed_once_declaring :
    ((["Main.cpp", "/home/Core/Core.cpp"].map (qualify "/home/Core")).Nodup) ∧
    ∀ d ∈ declarationDirectives
        ((declaring ["Main.cpp", "/home/Core/Core.cpp"]).collectSources Module.annex) default,
      ∀ text, d.sourceText? = some text → (pathsIn text).Nodup := by
  have hdistinct : (["Main.cpp", "/home/Core/Core.cpp"].map (qualify "/home/Core")).Nodup := by
    decide
  have hfound : ∀ path,
      (declaring ["Main.cpp", "/home/Core/Core.cpp"]).AddsSource Module.annex path →
        ';' ∉ path.toList := by
    intro path hadds
    rw [eq_of_addsSource_declaring hadds]
    decide
  have hexact := sources_printed_once_iff (m := declaring ["Main.cpp", "/home/Core/Core.cpp"])
    default hdistinct (by decide) (by decide) hfound
  have hapart : ∀ s ∈ ["Main.cpp", "/home/Core/Core.cpp"], isRooted s = false →
      "/home/Core" ++ "/" ++ s ≠ "/home/Core/Core.cpp" := by
    decide
  refine ⟨hdistinct, fun d hd text htext => (hexact.2 ?_ d hd text htext).2⟩
  intro _ _ _ s hs hrelative hadds
  exact hapart s hs hrelative (eq_of_addsSource_declaring hadds)

/-- A source that is declared by its name in the directory and found there stands twice in the
line. -/
theorem exists_source_printed_twice : ∃ (t : FileTree) (m : Module) (w : Workspace) (d : Directive),
    (m.sources.map (qualify m.directory)).Nodup ∧ IsListable m.directory ∧
      (∀ s ∈ m.sources, IsListable s) ∧ (∀ path, m.AddsSource t path → IsListable path) ∧
      d ∈ declarationDirectives (m.collectSources t) w ∧
      d.text = "add_library(Core STATIC /home/Core/Core.cpp;/home/Core/Core.cpp;)" ∧
      d.sourceText? = some "/home/Core/Core.cpp;/home/Core/Core.cpp;" ∧
      ¬ (pathsIn "/home/Core/Core.cpp;/home/Core/Core.cpp;").Nodup := by
  let m := declaring ["Core.cpp"]
  have hpaths : sourcePaths (m.collectSources Module.annex) =
      ["/home/Core/Core.cpp", "/home/Core/Core.cpp"] := by
    rw [sourcePaths, sources_declaring]
    decide
  have hfound : ∀ path, m.AddsSource Module.annex path → IsListable path := by
    intro path hadds
    rw [eq_of_addsSource_declaring hadds]
    decide
  have hkind : kindDirectives (m.collectSources Module.annex) default =
      [.library "Core" false (sourcePaths (m.collectSources Module.annex))] :=
    if_neg (hpaths ▸ List.cons_ne_nil _ _)
  refine ⟨Module.annex, m, default, .library "Core" false
      ["/home/Core/Core.cpp", "/home/Core/Core.cpp"], by decide, by decide, by decide, hfound, ?_,
    by decide, by decide, by decide⟩
  rw [declarationDirectives, hkind, hpaths]
  exact List.mem_append_left _ (List.mem_singleton_self _)

end BuildGraph.CMake
