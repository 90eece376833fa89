import BuildGraph.Proofs.Text.OneLine
import BuildGraph.Proofs.Workspace.Descriptors
set_option autoImplicit false

/-!
# Folders of platforms

Whether a file belongs to another platform is decided by its path, in which a backslash stands
for a slash. Below a directory that is in no folder of a platform itself, that comes to the same
as a look at each folder which the path goes through, from the directory down to the file.
-/

namespace BuildGraph

open FileTree

/-! ## Folders on a path -/

namespace Path

variable {mark : Char} {cs text : List Char} {ps qs : List (List Char)} {path name : String}

theorem joined_append (hps : ps ≠ []) (hqs : qs ≠ []) :
    joined mark (ps ++ qs) = joined mark ps ++ mark :: joined mark qs := by
  induction ps with
  | nil => exact absurd rfl hps
  | cons p ps ih =>
    by_cases hlast : ps = []
    · rw [hlast, List.singleton_append, joined_cons hqs]
      rfl
    · rw [List.cons_append, joined_cons (List.append_ne_nil_of_left_ne_nil hlast qs), ih hlast,
        joined_cons hlast, List.append_assoc, List.cons_append]

/-- The folders that a relative path goes through: what stands between its slashes up to the
last. -/
def foldersOf (rel : String) : List String :=
  (pieces '/' rel.toList).dropLast.map String.ofList

theorem mem_foldersOf_iff :
    name ∈ foldersOf path ↔ name.toList ∈ (pieces '/' path.toList).dropLast := by
  rw [foldersOf, List.mem_map]
  constructor
  · intro h
    obtain ⟨p, hp, rfl⟩ := h
    rwa [String.toList_ofList]
  · intro h
    exact ⟨name.toList, h, String.ofList_toList⟩

/-- A slash in front of a path puts an empty name before its folders. -/
theorem mem_foldersOf_slash (hname : name ≠ "") (rel : String) :
    name ∈ foldersOf ("/" ++ rel) ↔ name ∈ foldersOf rel := by
  have hchars : name.toList ≠ [] := fun h => hname (String.toList_inj.1 h)
  have hpieces : pieces '/' ("/" ++ rel).toList = [] :: pieces '/' rel.toList := by
    rw [String.toList_append]
    rfl
  rw [mem_foldersOf_iff, mem_foldersOf_iff, hpieces,
    List.dropLast_cons_of_ne_nil (pieces_ne_nil '/' _), List.mem_cons, or_iff_right hchars]

/-- What is no empty name and no dot is a component exactly if it stands between slashes. -/
theorem mem_components_iff (hname : isVoid name.toList = false) :
    name ∈ components path ↔ name.toList ∈ pieces '/' path.toList := by
  have hdot : name.toList ≠ ['.'] := by
    intro h
    rw [h] at hname
    cases hname
  have hofList : ∀ ps : List (List Char), name ∈ ps.map String.ofList ↔ name.toList ∈ ps := by
    intro ps
    rw [List.mem_map]
    exact ⟨fun ⟨p, hp, heq⟩ => heq ▸ String.toList_ofList.symm ▸ hp,
      fun h => ⟨_, h, String.ofList_toList⟩⟩
  rw [components, hofList]
  split <;> simp [hname, hdot]

/-- With slashes for its backslashes a directory still has a slash at its end. -/
theorem base_forward_under (dir : String) :
    base (forward (under dir "")) = (base dir).map forwardChar := by
  obtain ⟨front, hfront⟩ := exists_base_eq dir
  have hchars : (forward (under dir "")).toList = (base dir).map forwardChar := by
    rw [forward, String.toList_ofList, toList_under, String.toList_empty, List.append_nil]
  have hslash : ((base dir).map forwardChar).getLast? = some '/' := by
    rw [hfront]
    simp [forwardChar]
  rw [base, hchars, if_pos hslash]

theorem under_forward_under (dir : String) :
    under (forward (under dir "")) "" = forward (under dir "") := by
  rw [under, base_forward_under, forward, toList_under]
  simp

end Path

namespace Text

variable {mark : Char} {cs text : List Char}

/-- What occurs between two marks is a piece. -/
theorem mem_pieces_of_occursIn (h : mark ∉ cs)
    (hoccurs : occursIn (mark :: cs ++ [mark]) text = true) :
    cs ∈ Path.pieces mark text := by
  obtain ⟨before, after, rfl⟩ := occursIn_iff.1 hoccurs
  have hsplit : before ++ (mark :: cs ++ [mark]) ++ after =
      before ++ mark :: (cs ++ mark :: after) := by
    simp
  rw [hsplit, Path.pieces_append_cons, Path.pieces_append_cons, Path.pieces_of_not_mem h]
  simp

/-- Behind a mark the pieces that occur between two marks are all but the last. -/
theorem occursIn_cons_iff (h : mark ∉ cs) (text : List Char) :
    occursIn (mark :: cs ++ [mark]) (mark :: text) = true ↔
      cs ∈ (Path.pieces mark text).dropLast := by
  rw [occursIn_iff]
  constructor
  · intro hoccurs
    obtain ⟨before, after, heq⟩ := hoccurs
    have hsplit : mark :: text = before ++ mark :: (cs ++ mark :: after) := by
      simpa using heq
    have hpieces : [] :: Path.pieces mark text =
        Path.pieces mark before ++ (cs :: Path.pieces mark after) := by
      have hcut := congrArg (Path.pieces mark) hsplit
      rw [Path.pieces_append_cons, Path.pieces_append_cons, Path.pieces_of_not_mem h] at hcut
      simpa [Path.pieces] using hcut
    obtain ⟨first, rest, hfirst⟩ := List.exists_cons_of_ne_nil (Path.pieces_ne_nil mark before)
    rw [hfirst, List.cons_append, List.cons.injEq] at hpieces
    rw [hpieces.2, List.dropLast_append_of_ne_nil (List.cons_ne_nil _ _),
      List.dropLast_cons_of_ne_nil (Path.pieces_ne_nil mark after)]
    exact List.mem_append_right rest List.mem_cons_self
  · intro hmem
    obtain ⟨front, back, hsplit⟩ := List.append_of_mem hmem
    have hne := Path.pieces_ne_nil mark text
    have hpieces : [] :: Path.pieces mark text =
        ([] :: front) ++ cs :: (back ++ [(Path.pieces mark text).getLast hne]) := by
      rw [List.cons_append, ← List.cons_append (a := cs), ← List.append_assoc, ← hsplit,
        List.dropLast_append_getLast hne]
    have htext : mark :: text = Path.joined mark ([] :: Path.pieces mark text) := by
      rw [Path.joined_cons hne, Path.joined_pieces, List.nil_append]
    rw [hpieces, Path.joined_append (List.cons_ne_nil _ _) (List.cons_ne_nil _ _),
      Path.joined_cons (List.append_ne_nil_of_right_ne_nil back (List.cons_ne_nil _ _))] at htext
    generalize Path.joined mark ([] :: front) = before at htext
    generalize Path.joined mark (back ++ _) = after at htext
    exact ⟨before, after, by rw [htext]; simp⟩

end Text

/-! ## Folders of other platforms -/

namespace Platform

/-- The name of the folder whose files are for a platform alone. -/
def sourceFolder (p : Platform) : String :=
  "_" ++ p.folder

/-- Such a name is a component like any other. -/
theorem isPlainName_sourceFolder (p : Platform) : IsPlainName p.sourceFolder := by
  cases p <;> decide

end Platform

namespace Module

variable {m : Module} {p : Platform} {dir path rel : String} {way : Location}

/-- Whether a name is that of the folder of another platform. -/
def IsForeignFolder (p : Platform) (name : String) : Prop :=
  ∃ q : Platform, q ≠ p ∧ name = q.sourceFolder

instance (p : Platform) (name : String) : Decidable (IsForeignFolder p name) :=
  decidable_of_iff (∃ q ∈ Platform.all, q ≠ p ∧ name = q.sourceFolder)
    ⟨fun ⟨q, _, h⟩ => ⟨q, h⟩, fun ⟨q, h⟩ => ⟨q, q.mem_all, h⟩⟩

/-- Whether the folder of some platform is among the components of a directory. -/
def HasPlatformFolder (dir : String) : Prop :=
  ∃ q : Platform, q.sourceFolder ∈ Path.components (Path.forward dir)

instance (dir : String) : Decidable (HasPlatformFolder dir) :=
  decidable_of_iff (∃ q ∈ Platform.all, q.sourceFolder ∈ Path.components (Path.forward dir))
    ⟨fun ⟨q, _, h⟩ => ⟨q, h⟩, fun ⟨q, h⟩ => ⟨q, q.mem_all, h⟩⟩

theorem toList_platformFolder (q : Platform) :
    (platformFolder q).toList = '/' :: q.sourceFolder.toList ++ ['/'] := by
  simp [platformFolder, Platform.sourceFolder]

theorem isForeign_iff : isForeign p path = true ↔
    ∃ q, q ≠ p ∧ Text.occursIn ('/' :: q.sourceFolder.toList ++ ['/']) path.toList = true := by
  simp only [isForeign, List.any_eq_true, Bool.and_eq_true, bne_iff_ne, toList_platformFolder]
  exact exists_congr fun q => and_iff_right q.mem_all

/-- Behind a slash the folders of a relative path are compared by their names. -/
theorem isForeign_slash_iff (p : Platform) (rel : String) :
    isForeign p ("/" ++ rel) = true ↔ ∃ folder ∈ Path.foldersOf rel, IsForeignFolder p folder := by
  have hoccurs : ∀ q : Platform,
      Text.occursIn ('/' :: q.sourceFolder.toList ++ ['/']) ("/" ++ rel).toList = true ↔
        q.sourceFolder ∈ Path.foldersOf rel := by
    intro q
    have hpath : ("/" ++ rel).toList = '/' :: rel.toList := by
      simp
    rw [hpath, Text.occursIn_cons_iff q.isPlainName_sourceFolder.slash_not_mem,
      Path.mem_foldersOf_iff]
  simp only [isForeign_iff, hoccurs]
  constructor
  · intro h
    obtain ⟨q, hq, hmem⟩ := h
    exact ⟨_, hmem, q, hq, rfl⟩
  · intro h
    obtain ⟨_, hmem, q, hq, rfl⟩ := h
    exact ⟨q, hq, hmem⟩

/-- A slash more in front of an absolute path changes nothing. -/
theorem isForeign_slash_of_isAbsolute (p : Platform) (h : Path.isAbsolute path = true) :
    isForeign p ("/" ++ path) = isForeign p path := by
  obtain ⟨rest, hrest⟩ := List.head?_eq_some_iff.1 (beq_iff_eq.1 h)
  have hpath : path = "/" ++ String.ofList rest := by
    apply String.toList_inj.1
    rw [hrest]
    simp
  have hfolder : ∀ folder, IsForeignFolder p folder →
      (folder ∈ Path.foldersOf path ↔ folder ∈ Path.foldersOf (String.ofList rest)) := by
    intro folder hforeign
    obtain ⟨q, -, rfl⟩ := hforeign
    rw [hpath, Path.mem_foldersOf_slash q.isPlainName_sourceFolder.ne_empty]
  rw [Bool.eq_iff_iff, isForeign_slash_iff]
  conv_rhs => rw [hpath, isForeign_slash_iff]
  exact exists_congr fun folder => and_congr_left (hfolder folder)

theorem exists_mem_pieces_of_isForeign (h : isForeign p path = true) :
    ∃ q : Platform, q.sourceFolder.toList ∈ Path.pieces '/' path.toList := by
  obtain ⟨q, -, hoccurs⟩ := isForeign_iff.1 h
  exact ⟨q, Text.mem_pieces_of_occursIn q.isPlainName_sourceFolder.slash_not_mem hoccurs⟩

theorem hasPlatformFolder_iff : HasPlatformFolder dir ↔
    ∃ q : Platform, q.sourceFolder.toList ∈ Path.pieces '/' (Path.forward dir).toList :=
  exists_congr fun q => Path.mem_components_iff q.isPlainName_sourceFolder.isVoid_eq

theorem hasPlatformFolder_of_isForeign (h : isForeign p (Path.forward dir) = true) :
    HasPlatformFolder dir :=
  hasPlatformFolder_iff.2 (exists_mem_pieces_of_isForeign h)

/-- The slash at the end of a directory ends no further folder. -/
theorem hasPlatformFolder_of_isForeign_under
    (h : isForeign p (Path.forward (Path.under dir "")) = true) : HasPlatformFolder dir := by
  obtain ⟨q, hmem⟩ := exists_mem_pieces_of_isForeign h
  have hunder : (Path.forward (Path.under dir "")).toList = (Path.forward dir).toList ∨
      (Path.forward (Path.under dir "")).toList = (Path.forward dir).toList ++ '/' :: [] := by
    simp only [Path.forward, String.toList_ofList, Path.toList_under, Path.base,
      String.toList_empty, List.append_nil]
    split
    · exact .inl rfl
    · exact .inr List.map_append
  refine hasPlatformFolder_iff.2 ⟨q, ?_⟩
  rcases hunder with hunder | hunder
  · rwa [hunder] at hmem
  · rw [hunder, Path.pieces_append_cons] at hmem
    refine (List.mem_append.1 hmem).resolve_right fun hlast => ?_
    have hvoid := q.isPlainName_sourceFolder.isVoid_eq
    rw [List.mem_singleton.1 hlast] at hvoid
    cases hvoid

/-! ## Below a directory -/

/-- A path to something below a directory is a relative one behind the directory, or else
absolute. -/
theorem listedPath_eq (hdir : m.directory ≠ "") (way : Location) :
    (Path.isAbsolute (relativePath way) = true ∧ m.listedPath way = relativePath way) ∨
      m.listedPath way =
        Path.under (Path.forward (Path.under m.directory "")) (relativePath way) := by
  cases habsolute : Path.isAbsolute ("/".intercalate way) with
  | true =>
    refine .inl ⟨?_, ?_⟩
    · obtain ⟨rest, hrest⟩ := List.head?_eq_some_iff.1 (beq_iff_eq.1 habsolute)
      simp only [Path.isAbsolute, relativePath, Path.forward, String.toList_ofList, hrest]
      rfl
    · rw [listedPath, pathBelow, Path.join, if_pos habsolute, relativePath]
  | false =>
    refine .inr (String.toList_inj.1 ?_)
    rw [listedPath, pathBelow, Path.join_eq_under hdir habsolute, Path.toList_under,
      Path.base_forward_under, Path.forward, String.toList_ofList, Path.toList_under,
      List.map_append, relativePath, Path.forward, String.toList_ofList]

/-- Where no name holds a backslash, the folders on the path are those in the tree. -/
theorem foldersOf_relativePath (hway : way ≠ []) (hplain : ∀ name ∈ way, IsPlainName name)
    (hbackslash : ∀ name ∈ way, '\\' ∉ name.toList) :
    Path.foldersOf (relativePath way) = way.dropLast := by
  have hsame : relativePath way = "/".intercalate way := by
    refine Path.forward_eq_self fun hmem => ?_
    rw [← Path.joined_pieces '/' ("/".intercalate way).toList,
      Path.pieces_intercalate hway hplain] at hmem
    obtain hslash | ⟨p, hp, hc⟩ := Path.mem_joined hmem
    · cases hslash
    · obtain ⟨name, hname, rfl⟩ := List.mem_map.1 hp
      exact hbackslash name hname hc
  rw [hsame, Path.foldersOf, Path.pieces_intercalate hway hplain, ← List.map_dropLast, List.map_map]
  exact (List.map_congr_left fun name _ => String.ofList_toList).trans (List.map_id _)

/-- A path below a directory leads through the folder of another platform below the directory or,
if at all, above it. -/
theorem isForeign_listedPath (p : Platform) (hdir : m.directory ≠ "") (way : Location) :
    ∃ above, isForeign p (m.listedPath way) = (above || isForeign p ("/" ++ relativePath way)) ∧
      (above = true → HasPlatformFolder m.directory) := by
  obtain ⟨habsolute, hpath⟩ | hpath := listedPath_eq hdir way
  · refine ⟨false, ?_, nofun⟩
    rw [hpath, isForeign_slash_of_isAbsolute p habsolute, Bool.false_or]
  · refine ⟨_, hpath ▸ isForeign_under p _ _, fun habove => ?_⟩
    rw [isForeignDirectory, Path.under_forward_under] at habove
    exact hasPlatformFolder_of_isForeign_under habove

end Module

end BuildGraph
